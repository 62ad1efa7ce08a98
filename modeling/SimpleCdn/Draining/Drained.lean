import SimpleCdn.Draining.Records

/-!
# When a node is drained from DNS before its uninstall

The removal leaves no record of a node in a zone it has been through, and the waiting time starts
when it is through with all of them.  This is undone by a round that creates a record from an
older list of nodes; it is too little for records whose time to live exceeds the waiting time; and
a handler that has found the waiting time over may run its transaction on a workflow that has been
opened since.  `Timely` excludes these three, and along it a node is drained when its uninstall is
issued or completed by force.
-/

namespace SimpleCdn.Draining

open Store Retirement Transition

/-- When a handler issues a token or completes an uninstall, the records of its node are gone. -/
def Drained (s : State) (a : Action) : Prop :=
  ∀ i active token now call db, a = .base (.handlerStep i active token now) →
    s.base.handlers[i]? = some call → call.stage = .ready → call.write s.store token now = .ok db →
      Gone s call.nodeID now

/-- The request `j` of the call `k`, with its zone. -/
def State.nextRequest (s : State) (k j : Nat) : Option (String × DNSRequest) := do
  let call ← s.reconciles[k]?
  let requests ← call.requests
  let request ← requests[j]?
  return (call.zone, request)

/-- A record is created for a node only while no uninstall of it is prepared in the zone. -/
def CreatesUnprepared (s : State) : Option (String × DNSRequest) → Prop
  | some (zone, .create desired) => Unprepared s desired.comment.node zone
  | _ => True

instance (s : State) : ∀ request, Decidable (CreatesUnprepared s request)
  | some (zone, .create desired) =>
    inferInstanceAs (Decidable (Unprepared s desired.comment.node zone))
  | some (_, .update ..) | some (_, .delete _) | none => .isTrue trivial

/-- A workflow is opened only if the records of its node are out of every cache when it is ready. -/
def OpensExpired (s : State) : Option PrepareCall → Prop
  | some ⟨nodeID, .removed _ readyAt⟩ =>
    s.store.hasActiveNodeUninstall nodeID = false → Expired s nodeID readyAt
  | _ => True

instance (s : State) : ∀ call, Decidable (OpensExpired s call)
  | some ⟨nodeID, .removed _ readyAt⟩ =>
    inferInstanceAs (Decidable (s.store.hasActiveNodeUninstall nodeID = false →
      Expired s nodeID readyAt))
  | some ⟨_, .node⟩ | some ⟨_, .free⟩ | some ⟨_, .sites _⟩ | some ⟨_, .removing ..⟩ | none =>
    .isTrue trivial

/-- A handler runs its transaction only if the workflow is ready then. -/
def WritesReady (s : State) (now : Time) : Option UninstallCall → Prop
  | some ⟨nodeID, _, .ready, _⟩ =>
    ∀ job ∈ s.store.nodeUninstallJobs.find? nodeID, job.readyAt ≤ now
  | _ => True

instance (s : State) (now : Time) : ∀ call, Decidable (WritesReady s now call)
  | some ⟨nodeID, _, .ready, _⟩ =>
    inferInstanceAs (Decidable (∀ job ∈ s.store.nodeUninstallJobs.find? nodeID, _))
  | some ⟨_, _, .begun, _⟩ | some ⟨_, _, .node, _⟩ | some ⟨_, _, .job _, _⟩
  | some ⟨_, _, .sites .., _⟩ | none => .isTrue trivial

/-- The steps that keep a node drained. -/
def Timely (s : State) : Action → Prop
  | .request k j _ _ => CreatesUnprepared s (s.nextRequest k j)
  | .prepareStep i _ _ => OpensExpired s s.prepares[i]?
  | .base (.handlerStep i _ _ now) => WritesReady s now s.base.handlers[i]?
  | _ => True

instance (s : State) : ∀ a, Decidable (Timely s a)
  | .request k j _ _ => inferInstanceAs (Decidable (CreatesUnprepared s (s.nextRequest k j)))
  | .prepareStep i _ _ => inferInstanceAs (Decidable (OpensExpired s s.prepares[i]?))
  | .base (.handlerStep i _ _ now) =>
    inferInstanceAs (Decidable (WritesReady s now s.base.handlers[i]?))
  | .base (.site _) | .base (.node ..) | .base (.deleteNode _) | .base (.createCommand _)
  | .base (.forceComplete ..) | .setDNSDefaultTTL _ | .prepare _ | .prepareEnd _ | .round
  | .roundDrafts _ | .roundPublications _ | .roundSite .. | .roundDraft .. | .list _
  | .reconcileEnd _ => .isTrue trivial

section

variable {s : State} {n : String} {now : Time}

/-! ### Steps without DNS -/

theorem Inv.baseStep (hs : Inv s) {a : Retirement.Action} (ha : excluded a = false) :
    Inv { s with base := Retirement.step s.base a } := by
  obtain ⟨hzoned, hpublished⟩ := zoned_step hs.base hs.zoned ha
  constructor
  case base => exact hs.base.step a
  case zoned => exact hzoned
  case records => exact fun record hrecord => hpublished _ (hs.records record hrecord)
  case unique => exact hs.unique
  case rounds =>
    exact fun round hround publications hpublications publication hmem =>
      hpublished _ (hs.rounds round hround publications hpublications publication hmem)
  case desired => exact fun call hcall hne => hpublished _ (hs.desired call hcall hne)
  case creates => exact hs.creates
  case updates => exact hs.updates
  case prepares => exact hs.prepares
  case jobs =>
    intro n job' hjob' hblocks'
    obtain ⟨job, hjob, hblocks, hready⟩ := jobsOpen_step hs.base ha n job' hjob' hblocks'
    rw [hready]
    exact hs.jobs n job hjob hblocks

/-- A workflow that is open afterwards was open before, or is the one that has been opened. -/
theorem prepareNodeUninstall_open {db db' : Store} {nodeID : String} {affected : List String}
    {readyAt : Time} (h : db.prepareNodeUninstall nodeID affected readyAt now = .ok db')
    {job' : NodeUninstallJob} (hjob' : db'.nodeUninstallJobs.find? n = some job') :
    db.nodeUninstallJobs.find? n = some job' ∨
      (n = nodeID ∧ db.hasActiveNodeUninstall nodeID = false ∧ job'.readyAt = readyAt) := by
  simp only [prepareNodeUninstall, bind_eq_ok, require_eq_ok, getNode_eq_ok, exists_const] at h
  obtain ⟨node, -, -, -, -, h⟩ := h
  split at h
  · obtain rfl := pure_eq_ok.mp h
    exact .inl hjob'
  · next hnone =>
    obtain rfl := pure_eq_ok.mp h
    rw [Table.find?_upsert] at hjob'
    split at hjob'
    · next heq =>
      obtain rfl := Option.some.inj hjob'
      exact .inr ⟨(show nodeID = n from heq).symm, Bool.eq_false_of_not_eq_true hnone, rfl⟩
    · exact .inl hjob'

theorem openWorkflow_base (nodeID : String) (affected : List String) (readyAt : Time) :
    (s.openWorkflow nodeID affected readyAt now).base =
      s.base.onStore (s.store.prepareNodeUninstall nodeID affected readyAt now) := rfl

/-- A workflow is opened when no record names its node any more. -/
theorem Inv.openWorkflow (hs : Inv s) {nodeID : String} {affected : List String} {readyAt : Time}
    (hnone : ∀ record ∈ s.records, record.names nodeID = false)
    (hexpired : s.store.hasActiveNodeUninstall nodeID = false → Expired s nodeID readyAt) :
    Inv (s.openWorkflow nodeID affected readyAt now) := by
  have hsame := sitesSame_step hs.base (a := .node (.prepareUninstall nodeID affected readyAt) now)
    fun _ h => by cases h
  have hpublished : ∀ zone, PublishedIn s.store zone →
      PublishedIn (s.openWorkflow nodeID affected readyAt now).store zone :=
    fun zone h => (publishedIn_congr hsame.publications).mpr h
  constructor
  case base => exact hs.base.step (.node (.prepareUninstall nodeID affected readyAt) now)
  case zoned => exact hs.zoned.of_eq hsame.updates hsame.sites hsame.publications
  case records => exact fun record hrecord => hpublished _ (hs.records record hrecord)
  case unique => exact hs.unique
  case rounds =>
    exact fun round hround publications hpublications publication hmem =>
      hpublished _ (hs.rounds round hround publications hpublications publication hmem)
  case desired => exact fun call hcall hne => hpublished _ (hs.desired call hcall hne)
  case creates => exact hs.creates
  case updates => exact hs.updates
  case prepares => exact hs.prepares
  case jobs =>
    intro n job' hjob' hblocks
    have hwas : s.store.nodeUninstallJobs.find? n = some job' ∨
        (n = nodeID ∧ s.store.hasActiveNodeUninstall nodeID = false ∧ job'.readyAt = readyAt) := by
      rw [State.store, openWorkflow_base] at hjob'
      cases hprepare : s.store.prepareNodeUninstall nodeID affected readyAt now with
      | error e =>
        rw [hprepare] at hjob'
        exact .inl hjob'
      | ok db' =>
        rw [hprepare] at hjob'
        exact prepareNodeUninstall_open hprepare hjob'
    rcases hwas with hjob | ⟨rfl, hfree, hready⟩
    · exact hs.jobs n job' hjob hblocks
    · rw [hready]
      exact ⟨hnone, hexpired hfree⟩

/-! ### The handler that prepares an uninstall -/

theorem mem_eraseIdx_of_ne {zones : List String} {j : Nat} {zone other : String}
    (hzone : zone ∈ zones) (hj : zones[j]? = some other) (hne : zone ≠ other) :
    zone ∈ zones.eraseIdx j := by
  obtain ⟨i, hi, rfl⟩ := List.mem_iff_getElem.mp hzone
  refine List.mem_eraseIdx_iff_getElem?.mpr ⟨i, ?_, List.getElem?_eq_getElem hi⟩
  rintro rfl
  rw [List.getElem?_eq_getElem hi] at hj
  exact hne (Option.some.inj hj)

/-- The zones of all records are among those that the handler goes through. -/
theorem Inv.mem_zonesOf (hs : Inv s) (sites : List Site) {record : DNSRecord}
    (hrecord : record ∈ s.records) :
    record.zone ∈ zonesOf sites s.store.listSitePublications := by
  obtain ⟨publication, hpublication, hzone⟩ := hs.records record hrecord
  refine List.mem_dedup.mpr (List.mem_append_right _ (List.mem_map.mpr ⟨publication, ?_, hzone⟩))
  exact mem_listSitePublications.mpr hpublication

theorem Inv.prepareStep (hs : Inv s) {i j : Nat} {call : PrepareCall}
    (hcall : s.prepares[i]? = some call) (htimely : Timely s (.prepareStep i j now)) :
    Inv (s.prepareStep i j call now) := by
  have hknown := hs.prepares call (List.mem_of_getElem? hcall)
  unfold State.prepareStep
  split
  · split
    · split
      · exact hs.setPrepare fun _ _ _ => trivial
      · exact hs.endPrepare i
    · exact hs.setPrepare fun _ _ _ => trivial
  · exact hs.setPrepare fun _ _ _ => trivial
  · next sites hstage =>
    exact hs.setPrepare fun record hrecord _ => .inl (hs.mem_zonesOf sites hrecord)
  · next affected zones recordID records hstage =>
    simp only [hstage] at hknown
    split
    · refine (hs.deleteRecord recordID now).setPrepare fun record hrecord h => ?_
      obtain ⟨hrecord, hne⟩ := mem_deleteRecord.mp hrecord
      rcases hknown record hrecord h with hzone | hid
      · exact .inl hzone
      · exact .inr ((List.mem_cons.mp hid).resolve_left hne)
    · exact hs.endPrepare i
  · next affected zones hstage =>
    simp only [hstage] at hknown
    split
    · refine hs.setPrepare fun record hrecord h => ?_
      rcases hknown record hrecord h with hzone | hid
      · cases hzone
      · cases hid
    · split
      · next zone hzone =>
        refine hs.setPrepare fun record hrecord h => ?_
        rcases hknown record hrecord h with hleft | hid
        · by_cases hsame : record.zone = zone
          · -- the record is in the listing of its zone
            right
            refine List.mem_map.mpr ⟨record, List.mem_filter.mpr ⟨?_, h⟩, rfl⟩
            exact List.mem_filter.mpr ⟨hrecord, by simpa using hsame⟩
          · exact .inl (mem_eraseIdx_of_ne hleft hzone hsame)
        · cases hid
      · exact hs
  · next affected readyAt hstage =>
    simp only [hstage] at hknown
    have hexpired : s.store.hasActiveNodeUninstall call.nodeID = false →
        Expired s call.nodeID readyAt := by
      obtain ⟨nodeID, stage⟩ := call
      obtain rfl : stage = .removed affected readyAt := hstage
      rw [Timely, hcall] at htimely
      exact htimely
    exact (hs.endPrepare i).openWorkflow
      (fun record hrecord => Bool.eq_false_of_not_eq_true (hknown record hrecord)) hexpired

/-! ### Health rounds -/

theorem Inv.setRound (hs : Inv s) {i : Nat} {round : Round}
    (h : ∀ publications, round.publications = some publications →
      ∀ publication ∈ publications, PublishedIn s.store publication.site.zoneID) :
    Inv { s with rounds := s.rounds.set i round } := by
  refine hs.withRounds fun other hother => ?_
  rcases List.mem_or_eq_of_mem_set hother with hother | rfl
  · exact hs.rounds other hother
  · exact h

theorem Inv.startReconcile (hs : Inv s) {site : Site} {desired : List DesiredRecord}
    (h : desired ≠ [] → PublishedIn s.store site.zoneID) : Inv (s.startReconcile site desired) := by
  refine hs.withReconciles fun call hcall => ?_
  rcases List.mem_cons.mp hcall with rfl | hcall
  · refine .inr ⟨h, fun requests hnone => ?_, fun requests hnone => ?_⟩
    · cases hnone
    · cases hnone
  · exact .inl hcall

theorem Inv.list (hs : Inv s) {k : Nat} {call : ReconcileCall}
    (hcall : s.reconciles[k]? = some call) :
    Inv { s with
      reconciles := s.reconciles.set k
        { call with
          requests := some (reconcileRequests
            (s.records.filter fun record => record.zone = call.zone) call.siteID
              call.desired) } } := by
  refine hs.withReconciles fun other hother => ?_
  rcases List.mem_or_eq_of_mem_set hother with hother | rfl
  · exact .inl hother
  · refine .inr ⟨hs.desired call (List.mem_of_getElem? hcall), fun requests h record hmem => ?_,
      fun requests h recordID desired hmem => ?_⟩
    · obtain rfl := Option.some.inj h
      exact mem_creates hmem
    · obtain rfl := Option.some.inj h
      obtain ⟨record, hlisted, rfl, hisA, hcomment⟩ := mem_updates hmem
      have hrecord := (List.mem_filter.mp hlisted).1
      refine ⟨usedRecordID_iff.mpr (.inl ⟨record, hrecord, rfl⟩), fun other hother hid => ?_⟩
      rw [hs.unique other hother record hrecord hid]
      exact ⟨hisA, hcomment⟩

/-- The request that has been executed is dropped. -/
theorem Inv.nextRequests (hs : Inv s) {k j : Nat} {call : ReconcileCall}
    {requests : List DNSRequest} (hcall : s.reconciles[k]? = some call)
    (hrequests : call.requests = some requests) :
    Inv { s with
      reconciles := s.reconciles.set k { call with requests := some (requests.eraseIdx j) } } := by
  have hmem := List.mem_of_getElem? hcall
  refine hs.withReconciles fun other hother => ?_
  rcases List.mem_or_eq_of_mem_set hother with hother | rfl
  · exact .inl hother
  · refine .inr ⟨hs.desired call hmem, fun rest h record hrecord => ?_,
      fun rest h recordID desired hrecord => ?_⟩
    · obtain rfl := Option.some.inj h
      exact hs.creates call hmem requests hrequests record (List.mem_of_mem_eraseIdx hrecord)
    · obtain rfl := Option.some.inj h
      exact hs.updates call hmem requests hrequests recordID desired
        (List.mem_of_mem_eraseIdx hrecord)

/-- The provider executes a request of a call. -/
theorem Inv.execute (hs : Inv s) {call : ReconcileCall} {requests : List DNSRequest}
    {request : DNSRequest} {id : String} {s' : State} (hcall : call ∈ s.reconciles)
    (hrequests : call.requests = some requests) (hrequest : request ∈ requests)
    (hunprepared : ∀ desired, request = .create desired →
      Unprepared s desired.comment.node call.zone)
    (h : s.execute call.zone id now request = some s') :
    Inv s' ∧ s'.reconciles = s.reconciles := by
  cases request with
  | create desired =>
    simp only [State.execute] at h
    split at h
    · cases h
    · next hfresh =>
      obtain rfl := Option.some.inj h
      have hdesired := hs.creates call hcall requests hrequests desired hrequest
      have hzone := hs.desired call hcall (List.ne_nil_of_mem hdesired)
      exact ⟨hs.create (Bool.eq_false_of_not_eq_true hfresh) hzone (hunprepared desired rfl), rfl⟩
  | update recordID desired =>
    simp only [State.execute] at h
    split at h
    · obtain rfl := Option.some.inj h
      obtain ⟨-, hsame⟩ := hs.updates call hcall requests hrequests recordID desired hrequest
      refine ⟨hs.mapRecords (fun record => ?_) (fun record => ?_) (fun record hrecord => ?_)
        fun record hrecord => ?_, rfl⟩
      · split
        · rfl
        · rfl
      · split
        · rfl
        · rfl
      · split
        · next hid => exact (hsame record hrecord hid).1.symm
        · rfl
      · split
        · next hid => exact (hsame record hrecord hid).2.symm
        · rfl
    · cases h
  | delete recordID =>
    simp only [State.execute] at h
    split at h
    · obtain rfl := Option.some.inj h
      exact ⟨hs.deleteRecord recordID now, rfl⟩
    · cases h

/-! ### Runs -/

theorem Inv.step (hs : Inv s) {a : Action} (htimely : Timely s a) : Inv (step s a) := by
  cases a with
  | base a =>
    rw [Draining.step]
    split
    · exact hs
    · next ha => exact hs.baseStep (Bool.eq_false_of_not_eq_true ha)
  | setDNSDefaultTTL ttl =>
    rw [Draining.step]
    split
    · exact ⟨hs.base, hs.zoned, hs.records, hs.unique, hs.rounds, hs.desired, hs.creates,
        hs.updates, hs.prepares, hs.jobs⟩
    · exact hs
  | prepare nodeID =>
    rw [Draining.step]
    split
    · split
      · refine hs.withPrepares fun call hcall => ?_
        rcases List.mem_cons.mp hcall with rfl | hcall
        · exact fun _ _ _ => trivial
        · exact hs.prepares call hcall
      · exact hs
    · exact hs
  | prepareStep i j now =>
    rw [Draining.step]
    split
    · next call hcall => exact hs.prepareStep hcall htimely
    · exact hs
  | prepareEnd i => exact hs.endPrepare i
  | round =>
    refine hs.withRounds fun round hround publications hpublications => ?_
    rcases List.mem_cons.mp hround with rfl | hround
    · cases hpublications
    · exact hs.rounds round hround publications hpublications
  | roundDrafts i =>
    rw [Draining.step]
    split
    · next round hround => exact hs.setRound (hs.rounds round (List.mem_of_getElem? hround))
    · exact hs
  | roundPublications i =>
    rw [Draining.step]
    split
    · refine hs.setRound fun publications hpublications publication hmem => ?_
      obtain rfl := Option.some.inj hpublications
      exact ⟨publication, mem_listSitePublications.mp hmem, rfl⟩
    · exact hs
  | roundSite i j converging eligible =>
    rw [Draining.step]
    split
    · next round hround =>
      split
      · next publication hpublication =>
        split
        · refine hs.startReconcile fun _ => ?_
          have hmem := List.mem_of_getElem? hpublication
          cases hpublications : round.publications with
          | none =>
            rw [hpublications] at hmem
            cases hmem
          | some publications =>
            rw [hpublications] at hmem
            exact hs.rounds round (List.mem_of_getElem? hround) publications hpublications
              publication hmem
        · exact hs
      · exact hs
    · exact hs
  | roundDraft i j =>
    rw [Draining.step]
    split
    · split
      · split
        · exact hs.startReconcile fun h => absurd rfl h
        · exact hs
      · exact hs
    · exact hs
  | list k =>
    rw [Draining.step]
    split
    · next call hcall => exact hs.list hcall
    · exact hs
  | request k j id now =>
    rw [Draining.step]
    split
    · next call hcall =>
      split
      · next requests hrequests =>
        split
        · next request hrequest =>
          have hunprepared : ∀ desired, request = .create desired →
              Unprepared s desired.comment.node call.zone := by
            rintro desired rfl
            have hnext : s.nextRequest k j = some (call.zone, .create desired) := by
              simp [State.nextRequest, hcall, hrequests, hrequest]
            rw [Timely, hnext] at htimely
            exact htimely
          unfold State.executeRequest
          split
          · next s' hexecute =>
            obtain ⟨hs', hsame⟩ := hs.execute (List.mem_of_getElem? hcall) hrequests
              (List.mem_of_getElem? hrequest) hunprepared hexecute
            exact hs'.nextRequests (by rw [hsame]; exact hcall) hrequests
          · exact hs.endReconcile k
        · exact hs
      · exact hs
    · exact hs
  | reconcileEnd k => exact hs.endReconcile k

/-- The workflow that a handler writes is open, and it is ready. -/
theorem Inv.drained (hs : Inv s) {a : Action} (htimely : Timely s a) : Drained s a := by
  rintro i active token now call db rfl hcall hready hwrite
  obtain ⟨-, -, -, -, -, -, ⟨job, hjob, hblocks⟩, -⟩ := write_eq_ok hwrite
  obtain ⟨hnone, hexpired⟩ := hs.jobs call.nodeID job hjob hblocks
  have hnow : job.readyAt ≤ now := by
    obtain ⟨nodeID, kind, stage, assigned⟩ := call
    obtain rfl : stage = .ready := hready
    rw [Timely, hcall] at htimely
    exact htimely job hjob
  exact ⟨hnone, fun entry hentry hnames => (hexpired entry hentry hnames).trans hnow⟩

end

theorem inv_initial : Inv initial where
  base := Retirement.inv_initial
  zoned := ⟨fun call hcall => absurd hcall List.not_mem_nil,
    fun publication hpublication => absurd hpublication List.not_mem_nil⟩
  records := fun record hrecord => absurd hrecord List.not_mem_nil
  unique := fun record hrecord => absurd hrecord List.not_mem_nil
  rounds := fun round hround => absurd hround List.not_mem_nil
  desired := fun call hcall => absurd hcall List.not_mem_nil
  creates := fun call hcall => absurd hcall List.not_mem_nil
  updates := fun call hcall => absurd hcall List.not_mem_nil
  prepares := fun call hcall => absurd hcall List.not_mem_nil
  jobs := by
    intro n job hjob
    cases (show none = some job from hjob)

/-- **A node is drained from DNS before its uninstall** in every run whose steps are timely. -/
theorem drained_of_timely {as : List Action} (h : Along step Timely initial as) :
    Along step Drained initial as :=
  h.of_invariant (fun _ _ hs htimely => hs.step htimely) (fun _ _ hs htimely => hs.drained htimely)
    inv_initial

/-! ### A node that a site is moved away from -/

/-- A TCP forward on the nodes. -/
def siteOn (nodes : List String) (ttl : Int) : SiteDraft where
  name := "tcp"
  domains := ["a.example"]
  nodes := nodes
  primaryOrigin := ⟨"", "", "", false⟩
  backupOrigin := none
  passthrough := false
  clientMaxBodySizeMB := 0
  clientKeepaliveTimeoutSeconds := 0
  readWriteTimeoutSeconds := 0
  dnsTTLSeconds := some ttl
  tcpOnly := true
  tcpForwards := [⟨"tcp", 9000, false, "192.0.2.9", 1, false, "", 0, 0⟩]
  enabled := true

/-- A node becomes active. -/
def joined (n publicIPv4 : String) : List Action :=
  [.base (.node (.createNode n n publicIPv4) second),
    .base (.node (.setCapabilities n ["tcp_stream_v1"]) second),
    .base (.node (.heartbeat n 0 "" none "" "" "") second)]

/-- The site is published. -/
def published (taskID : String) (now : Time) : List Action :=
  [.base (.site (.publishRead "tcp")), .base (.site (.publishStep 0 taskID now)),
    .base (.site (.publishStep 0 "" now)), .base (.site (.publishStep 0 "" now)),
    .base (.site (.publishStep 0 "" now)), .base (.site (.publishStep 0 "" now))]

/-- The node confirms its first version. -/
def confirmed (n : String) (now : Time) : Action :=
  .base (.node (.heartbeat n 1 "" (some ⟨1, .succeeded, "", ""⟩) "" "" "") now)

/-- A step of the handler that issues a token. -/
def issueStep (now : Time) : Action :=
  .base (.handlerStep 0 (fun _ => true) "token" now)

/-- A site on two nodes is published and given a record of the first.  That node is paused and the
site moved away from it; its uninstall is prepared at 10 seconds, and ready at 85 seconds. -/
def movedAway (ttl : Int) : List Action :=
  joined "edge" "192.0.2.1" ++ joined "other" "192.0.2.2" ++
    [.base (.site (.createSite "tcp" (siteOn ["edge", "other"] ttl) "zone" second))] ++
    published "first" second ++
    [confirmed "edge" second, confirmed "other" second, .round, .roundDrafts 0,
      .roundPublications 0, .roundSite 0 0 (fun _ => false) (fun _ => true), .list 0,
      .request 0 0 "record" (2 * second),
      .base (.node (.setNodeStatus "edge" .draining) (3 * second)),
      .base (.site (.updateRead "tcp" (siteOn ["other"] ttl) "zone")),
      .base (.site (.updateCommit 0 (3 * second)))] ++
    published "second" (4 * second) ++
    .prepare "edge" :: List.replicate 7 (.prepareStep 0 0 (10 * second)) ++
    .base (.createCommand "edge") :: List.replicate 4 (issueStep (90 * second))

set_option maxRecDepth 20000 in
theorem movedAway_drained : Along step Drained initial (movedAway 60 ++ [issueStep (90 * second)]) :=
  drained_of_timely (by decide +kernel)

/-- The stage that the prerequisites lead to, as a decision. -/
def waitsReady : Retirement.UninstallStage → Bool
  | .ready => true
  | _ => false

set_option maxRecDepth 20000 in
/-- The token is issued 80 seconds after a record with a time to live of 300 seconds has been
deleted. -/
theorem movedAway_cached :
    ¬ Along step Drained initial (movedAway 300 ++ [issueStep (90 * second)]) := by
  rw [along_append]
  rintro ⟨-, hlast, -⟩
  have hready : ((run step initial (movedAway 300)).base.handlers[0]?.any fun call =>
      call.nodeID = "edge" && waitsReady call.stage &&
        (call.write (run step initial (movedAway 300)).store "token" (90 * second)).toBool) =
          true := by decide +kernel
  have hcached : ¬ Expired (run step initial (movedAway 300)) "edge" (90 * second) := by
    decide +kernel
  obtain ⟨call, hcall, h⟩ := (Option.any_eq_true _ _).mp hready
  simp only [Bool.and_eq_true, decide_eq_true_eq] at h
  obtain ⟨⟨hid, hstage⟩, hok⟩ := h
  have hwaits : call.stage = .ready := by
    cases hcase : call.stage with
    | ready => rfl
    | begun | node | job | sites =>
      rw [hcase] at hstage
      cases hstage
  cases hwrite : call.write (run step initial (movedAway 300)).store "token" (90 * second) with
  | error e =>
    rw [hwrite] at hok
    cases hok
  | ok db =>
    have hgone := hlast 0 (fun _ => true) "token" (90 * second) call db rfl hcall hwaits hwrite
    rw [hid] at hgone
    exact hcached hgone.2

end SimpleCdn.Draining
