import SimpleCdn.Draining.Zones

/-!
# Records and the nodes they name

Every record is in the zone of some publication, so a handler that has been through the zones of
the publications has found every record.  `Inv` says what a handler, a round and a call of
`Reconcile` know of the records at each stage, and that no record names a node with an open
workflow.
-/

namespace SimpleCdn.Draining

open Store Retirement

/-- The deleted records that name the node are out of every cache at this time. -/
def Expired (s : State) (n : String) (time : Time) : Prop :=
  ∀ entry ∈ s.deleted, entry.1.names n = true → entry.2 + entry.1.ttl * second ≤ time

instance (s : State) (n : String) (time : Time) : Decidable (Expired s n time) :=
  inferInstanceAs (Decidable (∀ entry ∈ s.deleted, _))

/-- No record names the node, and those that did have been deleted for as long as they live. -/
def Gone (s : State) (n : String) (now : Time) : Prop :=
  (∀ record ∈ s.records, record.names n = false) ∧ Expired s n now

/-- The handler has not come to the zone yet. -/
def PrepareStage.before (zone : String) : PrepareStage → Prop
  | .removing _ zones _ => zone ∈ zones
  | .removed .. => False
  | _ => True

instance (zone : String) : ∀ stage : PrepareStage, Decidable (stage.before zone)
  | .removing _ zones _ => inferInstanceAs (Decidable (zone ∈ zones))
  | .removed .. => .isFalse id
  | .node | .free | .sites _ => .isTrue trivial

/-- The node has no open workflow, and no handler that prepares one has been through the zone. -/
def Unprepared (s : State) (n zone : String) : Prop :=
  s.store.hasActiveNodeUninstall n = false ∧
    ∀ call ∈ s.prepares, call.nodeID = n → call.stage.before zone

instance (s : State) (n zone : String) : Decidable (Unprepared s n zone) :=
  inferInstanceAs (Decidable (_ ∧ _))

structure Inv (s : State) : Prop where
  base : Retirement.Inv s.base
  zoned : Zoned s.base.calls
  records : ∀ record ∈ s.records, PublishedIn s.store record.zone
  unique : ∀ record ∈ s.records, ∀ other ∈ s.records, record.id = other.id → record = other
  rounds : ∀ round ∈ s.rounds, ∀ publications, round.publications = some publications →
    ∀ publication ∈ publications, PublishedIn s.store publication.site.zoneID
  desired : ∀ call ∈ s.reconciles, call.desired ≠ [] → PublishedIn s.store call.zone
  creates : ∀ call ∈ s.reconciles, ∀ requests, call.requests = some requests →
    ∀ record, .create record ∈ requests → record ∈ call.desired
  updates : ∀ call ∈ s.reconciles, ∀ requests, call.requests = some requests →
    ∀ id desired, .update id desired ∈ requests → s.usedRecordID id = true ∧
      ∀ record ∈ s.records, record.id = id →
        record.isA = true ∧ record.comment = some desired.comment
  prepares : ∀ call ∈ s.prepares, ∀ record ∈ s.records, record.names call.nodeID = true →
    match call.stage with
    | .removing _ zones records => record.zone ∈ zones ∨ record.id ∈ records
    | .removed .. => False
    | _ => True
  jobs : ∀ n job, s.store.nodeUninstallJobs.find? n = some job →
    job.status.blocksStatus = true → Gone s n job.readyAt

section

variable {s : State} {n : String} {now : Time}

/-! ### Lists of calls -/

theorem Inv.withPrepares (hs : Inv s) {prepares : List PrepareCall}
    (h : ∀ call ∈ prepares, ∀ record ∈ s.records, record.names call.nodeID = true →
      match call.stage with
      | .removing _ zones records => record.zone ∈ zones ∨ record.id ∈ records
      | .removed .. => False
      | _ => True) : Inv { s with prepares := prepares } :=
  ⟨hs.base, hs.zoned, hs.records, hs.unique, hs.rounds, hs.desired, hs.creates, hs.updates, h, hs.jobs⟩

theorem Inv.withRounds (hs : Inv s) {rounds : List Round}
    (h : ∀ round ∈ rounds, ∀ publications, round.publications = some publications →
      ∀ publication ∈ publications, PublishedIn s.store publication.site.zoneID) :
    Inv { s with rounds := rounds } :=
  ⟨hs.base, hs.zoned, hs.records, hs.unique, h, hs.desired, hs.creates, hs.updates, hs.prepares, hs.jobs⟩

theorem Inv.endPrepare (hs : Inv s) (i : Nat) : Inv (s.endPrepare i) :=
  hs.withPrepares fun call hcall => hs.prepares call (List.mem_of_mem_eraseIdx hcall)

theorem Inv.setPrepare (hs : Inv s) {i : Nat} {call : PrepareCall} {stage : PrepareStage}
    (h : ∀ record ∈ s.records, record.names call.nodeID = true →
      match stage with
      | .removing _ zones records => record.zone ∈ zones ∨ record.id ∈ records
      | .removed .. => False
      | _ => True) : Inv (s.setPrepare i call stage) := by
  refine hs.withPrepares fun other hother => ?_
  rcases List.mem_or_eq_of_mem_set hother with hother | rfl
  · exact hs.prepares other hother
  · exact h

/-- Calls of `Reconcile` that were there before, or have the properties. -/
theorem Inv.withReconciles (hs : Inv s) {reconciles : List ReconcileCall}
    (h : ∀ call ∈ reconciles, call ∈ s.reconciles ∨
      ((call.desired ≠ [] → PublishedIn s.store call.zone) ∧
        (∀ requests, call.requests = some requests →
          ∀ record, .create record ∈ requests → record ∈ call.desired) ∧
        ∀ requests, call.requests = some requests →
          ∀ id desired, .update id desired ∈ requests → s.usedRecordID id = true ∧
            ∀ record ∈ s.records, record.id = id →
              record.isA = true ∧ record.comment = some desired.comment)) :
    Inv { s with reconciles := reconciles } := by
  refine ⟨hs.base, hs.zoned, hs.records, hs.unique, hs.rounds, fun call hcall => ?_, fun call hcall => ?_,
    fun call hcall => ?_, hs.prepares, hs.jobs⟩
  · rcases h call hcall with hold | ⟨hdesired, -, -⟩
    · exact hs.desired call hold
    · exact hdesired
  · rcases h call hcall with hold | ⟨-, hcreates, -⟩
    · exact hs.creates call hold
    · exact hcreates
  · rcases h call hcall with hold | ⟨-, -, hupdates⟩
    · exact hs.updates call hold
    · exact hupdates

theorem Inv.endReconcile (hs : Inv s) (k : Nat) : Inv (s.endReconcile k) :=
  hs.withReconciles fun call hcall => .inl (List.mem_of_mem_eraseIdx hcall)

/-! ### Records -/

theorem usedRecordID_iff {id : String} : s.usedRecordID id = true ↔
    (∃ record ∈ s.records, record.id = id) ∨ ∃ entry ∈ s.deleted, entry.1.id = id := by
  simp [State.usedRecordID, State.hasRecord]

theorem usedRecordID_deleteRecord {id : String} (recordID : String)
    (h : s.usedRecordID id = true) : (s.deleteRecord recordID now).usedRecordID id = true := by
  rw [usedRecordID_iff] at h ⊢
  rcases h with ⟨record, hrecord, hid⟩ | ⟨entry, hentry, hid⟩
  · by_cases hsame : record.id = recordID
    · right
      refine ⟨(record, now), List.mem_append_left _ (List.mem_map.mpr ⟨record, ?_, rfl⟩), hid⟩
      exact List.mem_filter.mpr ⟨hrecord, by simpa using hsame⟩
    · left
      exact ⟨record, List.mem_filter.mpr ⟨hrecord, by simpa using hsame⟩, hid⟩
  · exact .inr ⟨entry, List.mem_append_right _ hentry, hid⟩

theorem mem_deleteRecord {recordID : String} {record : DNSRecord} :
    record ∈ (s.deleteRecord recordID now).records ↔ record ∈ s.records ∧ record.id ≠ recordID := by
  simp [State.deleteRecord]

/-- While a workflow is open there is no record of its node to delete. -/
theorem Gone.deleteRecord {time : Time} (h : Gone s n time) (recordID : String) :
    Gone (s.deleteRecord recordID now) n time := by
  refine ⟨fun record hrecord => h.1 record (mem_deleteRecord.mp hrecord).1,
    fun entry hentry hnames => ?_⟩
  rcases List.mem_append.mp hentry with hnew | hold
  · obtain ⟨record, hrecord, rfl⟩ := List.mem_map.mp hnew
    rw [h.1 record (List.mem_filter.mp hrecord).1] at hnames
    cases hnames
  · exact h.2 entry hold hnames

theorem Inv.deleteRecord (hs : Inv s) (recordID : String) (now : Time) :
    Inv (s.deleteRecord recordID now) where
  base := hs.base
  zoned := hs.zoned
  records := fun record hrecord => hs.records record (mem_deleteRecord.mp hrecord).1
  unique := fun record hrecord other hother =>
    hs.unique record (mem_deleteRecord.mp hrecord).1 other (mem_deleteRecord.mp hother).1
  rounds := hs.rounds
  desired := hs.desired
  creates := hs.creates
  updates := by
    intro call hcall requests hrequests id desired hmem
    obtain ⟨hused, hsame⟩ := hs.updates call hcall requests hrequests id desired hmem
    exact ⟨usedRecordID_deleteRecord recordID hused,
      fun record hrecord => hsame record (mem_deleteRecord.mp hrecord).1⟩
  prepares := fun call hcall record hrecord =>
    hs.prepares call hcall record (mem_deleteRecord.mp hrecord).1
  jobs := fun n job hjob hblocks => (hs.jobs n job hjob hblocks).deleteRecord recordID

/-- A record is created for a node that is not prepared in its zone. -/
theorem Inv.create (hs : Inv s) {zone id : String} {desired : DesiredRecord}
    (hfresh : s.usedRecordID id = false) (hzone : PublishedIn s.store zone)
    (hunprepared : Unprepared s desired.comment.node zone) :
    Inv { s with records := ⟨id, zone, true, desired.name, desired.content, desired.ttl,
      some desired.comment⟩ :: s.records } := by
  have hnames : ∀ {n}, DNSRecord.names ⟨id, zone, true, desired.name, desired.content, desired.ttl,
      some desired.comment⟩ n = true → desired.comment.node = n := by
    intro n h
    simpa [DNSRecord.names] using h
  constructor
  case base => exact hs.base
  case zoned => exact hs.zoned
  case records =>
    intro record hrecord
    rcases List.mem_cons.mp hrecord with rfl | hrecord
    · exact hzone
    · exact hs.records record hrecord
  case unique =>
    have hnew : ∀ record ∈ s.records, record.id ≠ id := by
      intro record hrecord hid
      rw [usedRecordID_iff.mpr (.inl ⟨record, hrecord, hid⟩)] at hfresh
      cases hfresh
    intro record hrecord other hother hid
    rcases List.mem_cons.mp hrecord with rfl | hrecord
    · rcases List.mem_cons.mp hother with rfl | hother
      · rfl
      · exact absurd hid.symm (hnew other hother)
    · rcases List.mem_cons.mp hother with rfl | hother
      · exact absurd hid (hnew record hrecord)
      · exact hs.unique record hrecord other hother hid
  case rounds => exact hs.rounds
  case desired => exact hs.desired
  case creates => exact hs.creates
  case updates =>
    intro call hcall requests hrequests recordID wanted hmem
    obtain ⟨hused, hsame⟩ := hs.updates call hcall requests hrequests recordID wanted hmem
    refine ⟨?_, fun record hrecord hid => ?_⟩
    · rw [usedRecordID_iff] at hused ⊢
      exact hused.imp_left fun ⟨record, hrecord, hid⟩ =>
        ⟨record, List.mem_cons_of_mem _ hrecord, hid⟩
    · rcases List.mem_cons.mp hrecord with rfl | hrecord
      · rw [show recordID = id from hid.symm, hfresh] at hused
        cases hused
      · exact hsame record hrecord hid
  case prepares =>
    intro call hcall record hrecord h
    rcases List.mem_cons.mp hrecord with rfl | hrecord
    · have hbefore := hunprepared.2 call hcall (hnames h).symm
      revert hbefore
      cases call.stage with
      | removing affected zones records => exact .inl
      | removed affected readyAt => exact fun h => h
      | node => exact fun _ => trivial
      | free => exact fun _ => trivial
      | sites sites => exact fun _ => trivial
    · exact hs.prepares call hcall record hrecord h
  case jobs =>
    intro n job hjob hblocks
    obtain ⟨hnone, hexpired⟩ := hs.jobs n job hjob hblocks
    refine ⟨fun record hrecord => ?_, hexpired⟩
    rcases List.mem_cons.mp hrecord with rfl | hrecord
    · rw [Bool.eq_false_iff]
      intro h
      -- the node has an open workflow
      have hid : job.nodeID = n := Table.key_of_find? hjob
      have hactive : s.store.hasActiveNodeUninstall n = true :=
        Table.any_eq_true.mpr ⟨job, Table.mem_of_find? hjob, by simp [hid, hblocks]⟩
      rw [← hnames h, hunprepared.1] at hactive
      cases hactive
    · exact hnone record hrecord

/-- The records are changed, but not whose they are. -/
theorem Inv.mapRecords (hs : Inv s) {g : DNSRecord → DNSRecord}
    (hid : ∀ record, (g record).id = record.id) (hzone : ∀ record, (g record).zone = record.zone)
    (hisA : ∀ record ∈ s.records, (g record).isA = record.isA)
    (hcomment : ∀ record ∈ s.records, (g record).comment = record.comment) :
    Inv { s with records := s.records.map g } := by
  have hnames : ∀ record ∈ s.records, ∀ n, (g record).names n = record.names n := by
    intro record hrecord n
    rw [DNSRecord.names, hisA record hrecord, hcomment record hrecord, DNSRecord.names]
  constructor
  case base => exact hs.base
  case zoned => exact hs.zoned
  case records =>
    intro record' hrecord'
    obtain ⟨record, hrecord, rfl⟩ := List.mem_map.mp hrecord'
    rw [hzone]
    exact hs.records record hrecord
  case unique =>
    intro record' hrecord' other' hother' h
    obtain ⟨record, hrecord, rfl⟩ := List.mem_map.mp hrecord'
    obtain ⟨other, hother, rfl⟩ := List.mem_map.mp hother'
    rw [hid, hid] at h
    rw [hs.unique record hrecord other hother h]
  case rounds => exact hs.rounds
  case desired => exact hs.desired
  case creates => exact hs.creates
  case updates =>
    intro call hcall requests hrequests recordID desired hmem
    obtain ⟨hused, hsame⟩ := hs.updates call hcall requests hrequests recordID desired hmem
    refine ⟨?_, fun record' hrecord' h => ?_⟩
    · rw [usedRecordID_iff] at hused ⊢
      exact hused.imp_left fun ⟨record, hrecord, h⟩ =>
        ⟨g record, List.mem_map_of_mem hrecord, (hid record).trans h⟩
    · obtain ⟨record, hrecord, rfl⟩ := List.mem_map.mp hrecord'
      rw [hisA record hrecord, hcomment record hrecord]
      exact hsame record hrecord ((hid record).symm.trans h)
  case prepares =>
    intro call hcall record' hrecord' h
    obtain ⟨record, hrecord, rfl⟩ := List.mem_map.mp hrecord'
    rw [hnames record hrecord] at h
    rw [hid, hzone]
    exact hs.prepares call hcall record hrecord h
  case jobs =>
    intro n job hjob hblocks
    obtain ⟨hnone, hexpired⟩ := hs.jobs n job hjob hblocks
    refine ⟨fun record' hrecord' => ?_, hexpired⟩
    obtain ⟨record, hrecord, rfl⟩ := List.mem_map.mp hrecord'
    rw [hnames record hrecord]
    exact hnone record hrecord

/-! ### Listings -/

theorem mem_creates {existing : List DNSRecord} {siteID : String} {desired : List DesiredRecord}
    {record : DesiredRecord} (h : .create record ∈ reconcileRequests existing siteID desired) :
    record ∈ desired := by
  rcases List.mem_append.mp h with h | h
  · obtain ⟨other, hother, hrequest⟩ := List.mem_filterMap.mp h
    unfold wantedRequest at hrequest
    split at hrequest
    · cases hrequest
    · split at hrequest
      · split at hrequest
        · cases hrequest
        · cases hrequest
      · obtain rfl := DNSRequest.create.inj (Option.some.inj hrequest)
        exact hother
  · obtain ⟨other, -, hrequest⟩ := List.mem_map.mp h
    cases hrequest

/-- An update keeps the comment of the record. -/
theorem mem_updates {existing : List DNSRecord} {siteID recordID : String}
    {desired : List DesiredRecord} {wanted : DesiredRecord}
    (h : .update recordID wanted ∈ reconcileRequests existing siteID desired) :
    ∃ record ∈ existing, record.id = recordID ∧ record.isA = true ∧
      record.comment = some wanted.comment := by
  rcases List.mem_append.mp h with h | h
  · obtain ⟨other, -, hrequest⟩ := List.mem_filterMap.mp h
    unfold wantedRequest at hrequest
    split at hrequest
    · cases hrequest
    · split at hrequest
      · next record hfind =>
        split at hrequest
        · cases hrequest
        · obtain ⟨rfl, rfl⟩ := DNSRequest.update.inj (Option.some.inj hrequest)
          have hkey := List.find?_some hfind
          simp only [DNSRecord.ownedBy, DNSRecord.hasKey, Bool.and_eq_true,
            decide_eq_true_eq] at hkey
          exact ⟨record, List.mem_of_find?_eq_some hfind, rfl, hkey.1.1, hkey.2.2⟩
      · cases hrequest
  · obtain ⟨other, -, hrequest⟩ := List.mem_map.mp h
    cases hrequest

end

end SimpleCdn.Draining
