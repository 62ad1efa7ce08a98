import SimpleCdn.Health.SiteDNS
import SimpleCdn.Integrations.Refusing
import SimpleCdn.SiteCalls.System
import SimpleCdn.Store.NodeOps
import SimpleCdn.Store.Upgrades

/-!
# Failed nodes leave DNS

Sites are edited and published as in `SiteCalls`, nodes send heartbeats, probes are recorded, and
rounds reconcile the records of one site after the other.  A round judges whether nodes have
converged node by node but holds back the records of the whole site, so a node that never applies
its version keeps the records of every node of the site as they are.
-/

namespace SimpleCdn.Health.Failover

open Transition Cloudflare

structure State where
  calls : SiteCalls.Calls
  health : HealthStore
  zones : String → Zone
  defaultTTL : Int

/-- What a call of the provider runs into, and the token it is made with. -/
structure Call where
  provider : Provider
  around : Surroundings
  token : Except String String

inductive Action
  | site (a : SiteCalls.Action)
  | node (op : NodeOp) (now : Time)
  | probe (subject : Subject) (healthy : Bool) (lastError : String) (now : Time)
  | setDefaultTTL (ttl : Int)
  /-- A round comes to a site. -/
  | round (siteID : String) (call : Call)

def emptyZone : Zone where
  records := ∅
  unique := fun _ hr => absurd hr (Table.not_mem_empty _)

def initial : State where
  calls := SiteCalls.initial
  health := HealthStore.empty
  zones := fun _ => emptyZone
  defaultTTL := 60

def State.store (s : State) : Store :=
  s.calls.store

/-- The rows of probes refer to the nodes and sites there are. -/
def State.healthStore (s : State) : HealthStore :=
  { s.health with
    nodes := s.store.nodes.rows.map Node.id
    sites := s.store.sites.rows.map Site.id }

/-- The reads of a round. -/
def State.reads (s : State) : Reads where
  hasActiveNodeUpgrade nodeID := .ok (s.store.hasActiveNodeUpgrade nodeID)
  desiredVersion nodeID := .ok ((s.store.nodeState nodeID).elim 0 DesiredState.version)
  hasActiveNodePublication nodeID := .ok (s.store.hasActiveNodePublication nodeID)
  nodeHealth nodeID := .ok (s.health.nodeHealthOf nodeID)
  nodeState nodeID := orError (s.store.nodeState nodeID) "not found"
  siteNodeHealth siteID nodeID := .ok (s.health.siteNodeHealthOf siteID nodeID)

/-! ### Rounds -/

/-- What a round does about a site. -/
inductive Handling
  /-- There is nothing published, or no draft. -/
  | skip
  /-- The records go: the draft is being deleted, or the published site is disabled. -/
  | clear (site : Site)
  | reconcile (site : Site)

def State.handling (s : State) (siteID : String) : Handling :=
  match s.store.sitePublication siteID, s.store.sites.find? siteID with
  | some publication, some draft =>
    if draft.deleting then .clear draft
    else if publication.site.enabled = false then .clear publication.site
    else .reconcile publication.site
  | _, _ => .skip

def State.ttl (s : State) (site : Site) : Int :=
  site.dnsTTLSeconds.getD s.defaultTTL

/-- The provider is called for the site; the error is what the round reports. -/
def callProvider (call : Call) (wrap : String) (site : Site) (desired : List Cloudflare.DNSRecord)
    (zone : Zone) : Except String Unit × Zone :=
  match reconcile call.provider call.around call.token site.zoneID (siteOwner site) desired zone with
  | .ok s => (.ok (), s.zone)
  | .error failure => (.error (wrap ++ site.name ++ ": " ++ failure.1.message), failure.2.zone)

/-- What the round reports about the site, and the zone it leaves. -/
def State.roundSite (s : State) (call : Call) : Handling → Except String Unit × (String → Zone)
  | .skip => (.ok (), s.zones)
  | .clear site =>
    let (result, zone) := callProvider call "remove DNS for disabled site " site []
      (s.zones site.zoneID)
    (result, Function.update s.zones site.zoneID zone)
  | .reconcile site =>
    match siteDNSOutcome s.reads (s.ttl site) site s.store.listNodes with
    | .error message => (.error message, s.zones)
    | .ok outcome =>
      match outcome.desired with
      | none => (.ok (), s.zones)
      | some desired =>
        let (result, zone) := callProvider call "reconcile DNS for " site desired
          (s.zones site.zoneID)
        (result, Function.update s.zones site.zoneID zone)

def step (s : State) : Action → State
  | .site a => { s with calls := SiteCalls.step s.calls a }
  | .node op now =>
    match op.apply s.store now with
    | .ok db => { s with calls := { s.calls with store := db } }
    | .error _ => s
  | .probe subject healthy lastError now =>
    { s with health := s.healthStore.step (.probe subject healthy lastError now) }
  | .setDefaultTTL ttl => { s with defaultTTL := ttl }
  | .round siteID call => { s with zones := (s.roundSite call (s.handling siteID)).2 }

/-! ### The law -/

/-- The nodes of the site that the round has read. -/
def State.assigned (s : State) (site : Site) : List Node :=
  assignedNodes site s.store.listNodes

/-- No publication or upgrade is under way on the nodes of the site, and one of them serves. -/
structure Calm (s : State) (site : Site) : Prop where
  published : ∀ task ∈ s.store.deploymentTasks, task.status.active = true →
    ∀ row ∈ s.store.publishTaskNodes, row.taskID = task.id → row.nodeID ∉ site.nodes
  notUpgrading : ∀ node ∈ s.assigned site, ¬Upgrading s.reads node
  serving : ∃ node ∈ s.assigned site, Fit s.reads site node

/-- The node is active and has failed three probes in a row. -/
structure Failed (s : State) (node : Node) : Prop where
  active : node.status = .active
  ineligible : (s.health.nodeHealthOf node.id).dnsEligible = false
  failures : 3 ≤ (s.health.nodeHealthOf node.id).consecutiveFailures

/-- The zone has no record of the site for a failed node. -/
def Gone (s : State) (zones : String → Zone) (site : Site) : Prop :=
  ∀ node ∈ s.assigned site, Failed s node →
    ∀ r ∈ (zones site.zoneID).records, recordIsA r = true → r.comment ≠ siteComment site node

/-- The site whose records the round makes right. -/
def Handling.site? : Handling → Option Site
  | .skip => none
  | .clear site => some site
  | .reconcile site => some site

/-- After a round that reports no error about the site, its failed nodes have no record. -/
def LeavesDNS (s : State) : Action → Prop
  | .round siteID call =>
    ∀ site, (s.handling siteID).site? = some site →
      (s.roundSite call (s.handling siteID)).1 = .ok () → Calm s site →
      Gone s (step s (.round siteID call)).zones site
  | _ => True

/-- Every active node of the site has applied its desired version, or no record of a failed node was
left. -/
def Converged (s : State) (site : Site) : Prop :=
  (∀ node ∈ s.assigned site, node.status = .active →
    ∃ state, s.store.nodeState node.id = some state ∧ state.version ≠ 0 ∧
      state.version ≤ node.appliedVersion) ∨ Gone s s.zones site

/-- The condition on a step: a round over a site to be reconciled finds it converged. -/
def RoundConverged (s : State) : Action → Prop
  | .round siteID _ => ∀ site, s.handling siteID = .reconcile site → Calm s site → Converged s site
  | _ => True

section

variable {s : State} {site : Site} {node : Node} {call : Call}

theorem carries_siteComment {r : Cloudflare.DNSRecord} (h : r.comment = siteComment site node) :
    r.carries (siteOwner site) = true := by
  rw [Cloudflare.DNSRecord.carries, h, Text.hasPrefix, List.isPrefixOf_iff_prefix]
  refine ⟨("node=" ++ node.id).toList, ?_⟩
  simp only [ownerPrefix, siteOwner, siteComment, String.toList_append, List.append_assoc]
  rfl

theorem assigned_eq_of_id {node' : Node} (h : node ∈ s.assigned site) (h' : node' ∈ s.assigned site)
    (hid : node.id = node'.id) : node = node' := by
  obtain ⟨nodeID, -, hfind⟩ := List.mem_filterMap.mp h
  obtain ⟨nodeID', -, hfind'⟩ := List.mem_filterMap.mp h'
  have hsome : node.id = nodeID := by simpa using List.find?_some hfind
  have hsome' : node'.id = nodeID' := by simpa using List.find?_some hfind'
  rw [← hsome, hid, hsome', hfind'] at hfind
  exact (Option.some.inj hfind).symm

/-- A call of the provider that succeeds leaves only records that were asked for. -/
theorem gone_of_called {desired : List Cloudflare.DNSRecord} {wrap : String}
    (hok : (callProvider call wrap site desired (s.zones site.zoneID)).1 = .ok ())
    (hdesired : ∀ record ∈ desired, ∀ node ∈ s.assigned site, Failed s node →
      record.comment ≠ siteComment site node) :
    Gone s (Function.update s.zones site.zoneID
      (callProvider call wrap site desired (s.zones site.zoneID)).2) site := by
  intro node hnode hfailed r hr hA hcomment
  rw [Function.update_self] at hr
  unfold callProvider at hok hr
  split at hok
  · next result hresult =>
    have howned : r.owned (siteOwner site) = true := by
      rw [Cloudflare.DNSRecord.owned, hA, carries_siteComment hcomment]
      rfl
    rw [hresult] at hr
    obtain ⟨record, hrecord, hkey⟩ := desired_of_ok hresult hr howned
    refine hdesired record hrecord node hnode hfailed ?_
    exact (congrArg RecordKey.comment hkey).trans hcomment
  · cases hok

/-! ### The reads of a round -/

theorem readable (s : State) (site : Site) (node : Node) : Readable s.reads site node where
  upgrade := ⟨_, rfl⟩
  version := by
    refine ⟨_, rfl, fun hne => ?_⟩
    cases hstate : s.store.nodeState node.id with
    | some state => exact ⟨state, congrArg (orError · "not found") hstate⟩
    | none =>
      rw [hstate] at hne
      exact absurd rfl hne
  publication := ⟨_, rfl⟩
  nodeHealth := ⟨_, rfl⟩
  siteHealth := ⟨_, rfl⟩

/-- The survey of a round. -/
theorem exists_surveyed (s : State) (site : Site) :
    ∃ survey, (s.assigned site).foldlM (surveyNode s.reads site) ⟨[], 0, 0⟩ = .ok survey ∧
      Surveyed s.reads site (s.assigned site) survey := by
  have hreadable : ∀ node ∈ s.assigned site, Readable s.reads site node :=
    fun node _ => readable s site node
  obtain ⟨survey, hsurvey⟩ := exists_survey hreadable
  exact ⟨survey, hsurvey, surveyed _ hsurvey⟩

/-- A node of a calm site that is converging has not applied its desired version. -/
theorem Calm.behind_of_converging (h : Calm s site) (hnode : node ∈ s.assigned site) {active : Bool}
    (hstanding : standing s.reads site node = .ok (.converging active)) :
    node.status = .active ∧
      ¬∃ state, s.store.nodeState node.id = some state ∧ state.version ≠ 0 ∧
        state.version ≤ node.appliedVersion := by
  obtain ⟨-, hup | ⟨hactive, hbehind⟩⟩ := standing_says hstanding
  · exact absurd hup (h.notUpgrading node hnode)
  · refine ⟨hactive, ?_⟩
    rintro ⟨state, hstate, hpositive, happlied⟩
    rcases hbehind with ⟨version, hversion, hbehind⟩ | hpublishing
    · have heq : (s.store.nodeState node.id).elim 0 DesiredState.version = version :=
        Except.ok.inj hversion
      rw [hstate] at heq
      have heq : state.version = version := heq
      omega
    · -- A pending target of an active task would be a target of an active task.
      have hpending : s.store.hasActiveNodePublication node.id = true := Except.ok.inj hpublishing
      simp only [Store.hasActiveNodePublication, Table.any_eq_true, Bool.and_eq_true,
        decide_eq_true_eq] at hpending
      obtain ⟨row, hrow, ⟨hrowNode, -⟩, task, htask, htaskID, hactiveTask⟩ := hpending
      refine h.published task htask hactiveTask row hrow htaskID.symm ?_
      rw [hrowNode]
      exact (mem_assignedNodes hnode).2

/-- A node that has not applied its desired version is converging, if it does not upgrade. -/
theorem converging_of_behind (hnot : ¬Upgrading s.reads node) (hactive : node.status = .active)
    (hbehind : ¬∃ state, s.store.nodeState node.id = some state ∧ state.version ≠ 0 ∧
      state.version ≤ node.appliedVersion) :
    standing s.reads site node = .ok (.converging true) := by
  have hupgrading : nodeUpgradeInProgress s.reads node = .ok false := by
    obtain ⟨upgrading, hupgrading⟩ : ∃ upgrading,
        nodeUpgradeInProgress s.reads node = .ok upgrading := by
      unfold nodeUpgradeInProgress
      split
      · exact ⟨true, rfl⟩
      · exact ⟨_, rfl⟩
    cases upgrading with
    | true => exact absurd hupgrading hnot
    | false => exact hupgrading
  refine bind_eq_ok.mpr ⟨false, hupgrading, ?_⟩
  rw [if_neg (not_not.mpr hactive), if_neg Bool.false_ne_true]
  refine bind_eq_ok.mpr ⟨_, rfl, ?_⟩
  rw [if_pos]
  · rfl
  · cases hstate : s.store.nodeState node.id with
    | none => exact .inl rfl
    | some state =>
      by_cases hzero : state.version = 0
      · exact .inl hzero
      · refine .inr (Nat.not_le.mp fun hle => hbehind ⟨state, hstate, hzero, hle⟩)

/-! ### One round -/

/-- A round over a calm site calls the provider exactly when every active node has applied its
desired version, and then asks for the records of fit nodes only. -/
theorem outcome_of_calm (h : Calm s site) (ttl : Int) :
    ∃ outcome, siteDNSOutcome s.reads ttl site s.store.listNodes = .ok outcome ∧
      ((∀ node ∈ s.assigned site, node.status = .active →
          ∃ state, s.store.nodeState node.id = some state ∧ state.version ≠ 0 ∧
            state.version ≤ node.appliedVersion) →
        ∃ desired, outcome.desired = some desired ∧ ∀ record ∈ desired,
          ∃ node ∈ s.assigned site, Fit s.reads site node ∧
            record.comment = siteComment site node) ∧
      (outcome.desired ≠ none →
        ∀ node ∈ s.assigned site, node.status = .active →
          ∃ state, s.store.nodeState node.id = some state ∧ state.version ≠ 0 ∧
            state.version ≤ node.appliedVersion) := by
  obtain ⟨survey, hsurvey, hs⟩ := exists_surveyed s site
  obtain ⟨serving, hserving, hfit⟩ := h.serving
  have hhealthy : survey.healthy ≠ [] :=
    List.ne_nil_of_mem ((hs.fit serving hserving).mpr hfit)
  by_cases hzero : survey.convergingAssigned = 0
  · have hpos : ¬survey.convergingAssigned > 0 := by omega
    refine ⟨_, bind_eq_ok.mpr ⟨survey, hsurvey, by rw [if_neg hpos, if_neg hhealthy]; rfl⟩,
      fun _ => ⟨_, rfl, fun record hrecord => ?_⟩, fun _ node hnode hactive => ?_⟩
    · obtain ⟨node, hmem, hrecord⟩ := List.mem_flatMap.mp hrecord
      obtain ⟨name, -, rfl⟩ := List.mem_map.mp hrecord
      have hnode := hs.healthy.subset hmem
      exact ⟨node, hnode, (hs.fit node hnode).mp hmem, rfl⟩
    · by_contra hbehind
      exact hs.settled.mp hzero node hnode true
        (converging_of_behind (h.notUpgrading node hnode) hactive hbehind)
  · have hpos : survey.convergingAssigned > 0 := by omega
    refine ⟨_, bind_eq_ok.mpr ⟨survey, hsurvey, by rw [if_pos hpos]; rfl⟩, fun hcurrent => ?_,
      fun hnone => absurd rfl hnone⟩
    refine absurd (hs.settled.mpr fun node hnode active hstanding => ?_) hzero
    obtain ⟨hactive, hbehind⟩ := h.behind_of_converging hnode hstanding
    exact hbehind (hcurrent node hnode hactive)

theorem roundSite_clear (s : State) (call : Call) (site : Site) :
    s.roundSite call (.clear site) =
      ((callProvider call "remove DNS for disabled site " site [] (s.zones site.zoneID)).1,
        Function.update s.zones site.zoneID
          (callProvider call "remove DNS for disabled site " site [] (s.zones site.zoneID)).2) :=
  rfl

theorem roundSite_reconcile {outcome : SiteDNSOutcome}
    (h : siteDNSOutcome s.reads (s.ttl site) site s.store.listNodes = .ok outcome) (call : Call) :
    s.roundSite call (.reconcile site) =
      match outcome.desired with
      | none => (.ok (), s.zones)
      | some desired =>
        ((callProvider call "reconcile DNS for " site desired (s.zones site.zoneID)).1,
          Function.update s.zones site.zoneID
            (callProvider call "reconcile DNS for " site desired (s.zones site.zoneID)).2) := by
  rw [State.roundSite, h]

/-- A failed node is none of those that records are asked for. -/
theorem Failed.not_asked (h : Failed s node) (hnode : node ∈ s.assigned site)
    {record : Cloudflare.DNSRecord}
    (hrecord : ∃ node ∈ s.assigned site, Fit s.reads site node ∧
      record.comment = siteComment site node) : record.comment ≠ siteComment site node := by
  obtain ⟨node', hnode', hfit, hcomment⟩ := hrecord
  intro hsame
  have heq : node' = node :=
    assigned_eq_of_id hnode' hnode (siteComment_inj (hcomment.symm.trans hsame))
  obtain ⟨health, hhealth, heligible⟩ := hfit.nodeEligible
  have hhealth : s.health.nodeHealthOf node'.id = health := Except.ok.inj hhealth
  rw [← hhealth, heq, h.ineligible] at heligible
  cases heligible

/-- What the round must have found, for a site it reconciles. -/
theorem leavesDNS_reconcile (s : State) (site : Site) (call : Call) (hcalm : Calm s site) :
    Converged s site ↔ ((s.roundSite call (.reconcile site)).1 = .ok () →
      Gone s (s.roundSite call (.reconcile site)).2 site) := by
  obtain ⟨outcome, houtcome, hcalled, hcurrent⟩ := outcome_of_calm hcalm (s.ttl site)
  rw [roundSite_reconcile houtcome]
  cases hdesired : outcome.desired with
  | none =>
    refine ⟨fun hconverged _ => hconverged.resolve_left fun h => ?_, fun h => .inr (h rfl)⟩
    obtain ⟨desired, hsome, -⟩ := hcalled h
    rw [hdesired] at hsome
    cases hsome
  | some desired =>
    have happlied := hcurrent (by rw [hdesired]; exact nofun)
    refine iff_of_true (.inl happlied) fun hok => gone_of_called hok ?_
    obtain ⟨desired', hsome, hasked⟩ := hcalled happlied
    rw [hdesired] at hsome
    obtain rfl := Option.some.inj hsome
    exact fun record hrecord node hnode hfailed => hfailed.not_asked hnode (hasked record hrecord)

/-- A round takes the failed nodes of the site out of DNS exactly when it finds the site
converged. -/
theorem leavesDNS_iff (s : State) (a : Action) : RoundConverged s a ↔ LeavesDNS s a := by
  cases a with
  | site _ => exact Iff.rfl
  | node _ _ => exact Iff.rfl
  | probe _ _ _ _ => exact Iff.rfl
  | setDefaultTTL _ => exact Iff.rfl
  | round siteID call =>
    simp only [RoundConverged, LeavesDNS, step]
    cases hhandling : s.handling siteID with
    | skip =>
      refine iff_of_true (fun site hsite => ?_) fun site hsite => ?_
      · cases hsite
      · cases hsite
    | clear site =>
      refine iff_of_true (fun site' hsite => by cases hsite) fun site' hsite hok _ => ?_
      have heq : site = site' := Option.some.inj hsite
      subst heq
      rw [roundSite_clear] at hok ⊢
      exact gone_of_called hok fun record hrecord => absurd hrecord List.not_mem_nil
    | reconcile site =>
      constructor
      · intro h site' hsite hok hcalm
        have heq : site = site' := Option.some.inj hsite
        subst heq
        exact (leavesDNS_reconcile s site call hcalm).mp (h site rfl hcalm) hok
      · intro h site' heq hcalm
        obtain rfl := Handling.reconcile.inj heq
        exact (leavesDNS_reconcile s site call hcalm).mpr fun hok => h site rfl hok hcalm

/-- In every run, each round that reports no error about a site leaves DNS without its failed nodes,
exactly if each round finds its sites converged. -/
theorem failedNodes_leaveDNS (as : List Action) :
    Along step RoundConverged initial as ↔ Along step LeavesDNS initial as := by
  refine ⟨fun h => h.mono fun s a => (leavesDNS_iff s a).mp,
    fun h => h.mono fun s a => (leavesDNS_iff s a).mpr⟩

end

/-! ### A node that fails for good -/

def relayNode (id publicIPv4 : String) : Node :=
  { shopNode with
    id := id, name := id, publicIPv4 := publicIPv4, capabilities := ["tcp_stream_v1"]
    appliedVersion := 0 }

/-- The tables after both nodes have been created and enrolled. -/
def relayTables : SiteCalls.OtherTables where
  nodes := ⟨[relayNode "a" "203.0.113.1", relayNode "b" "203.0.113.2"], by decide⟩
  nodeStates := ∅
  deploymentTasks := ∅
  publishTaskNodes := ∅
  siteDeletionJobs := ∅
  nodeUninstallJobs := ∅
  nodeUpgradeTasks := ∅
  enrollmentTokens := ∅
  securityPolicies := []
  rateLimitPolicies := []
  cacheDefaultSizeGB := 1
  issuedIDs := ["a", "b"]

/-- A TCP forward to the port `port` of the origin. -/
def relayDraft (port : Int) : SiteDraft where
  name := "relay"
  domains := ["relay.example.com"]
  nodes := ["a", "b"]
  primaryOrigin := ⟨"", "", "", false⟩
  backupOrigin := none
  passthrough := false
  clientMaxBodySizeMB := 0
  clientKeepaliveTimeoutSeconds := 0
  readWriteTimeoutSeconds := 0
  dnsTTLSeconds := none
  tcpOnly := true
  tcpForwards := [⟨"relay", 9000, false, "192.0.2.9", port, false, "", 0, 0⟩]
  enabled := true

def plainCall : Call :=
  ⟨longerIDs, plainSurroundings, .ok "token"⟩

def publishRelay (taskID : String) (now : Time) : List Action :=
  .site (.publishRead "relay") :: (List.range 5).map fun i =>
    .site (.publishStep 0 (if i = 0 then taskID else "") (now + i))

def beat (nodeID : String) (version : Nat) (report : ApplyReport) (now : Time) : Action :=
  .node (.heartbeat nodeID version "" (some report) "" "" "") now

/-- Both nodes apply the first version and get their records; the second version fails on node
`b`, which ends the task, and then node `b` dies. -/
def relayRun : List Action :=
  [.site (.otherTables relayTables), .site (.createSite "relay" (relayDraft 1) "zone" 1)] ++
    publishRelay "first" 2 ++
    [beat "a" 1 ⟨1, .succeeded, "", ""⟩ 10, beat "b" 1 ⟨1, .succeeded, "", ""⟩ 11] ++
    List.replicate 5 (.probe (.node "a") true "" 12) ++
    List.replicate 5 (.probe (.node "b") true "" 12) ++
    [.round "relay" plainCall, .site (.updateRead "relay" (relayDraft 2) "zone"),
      .site (.updateCommit 0 20)] ++
    publishRelay "second" 21 ++
    [beat "a" 2 ⟨2, .succeeded, "", ""⟩ 30, beat "b" 1 ⟨2, .failed, "", "nginx"⟩ 31] ++
    List.replicate 3 (.probe (.node "b") false "refused" 40)

/-- The published site at the end of the run. -/
def relaySite : Site :=
  { (relayDraft 2).site "relay" with
    zoneID := "zone", cacheGeneration := 1, configVersion := 2, published := true, createdAt := 1
    updatedAt := 25 }

/-- Node `b` at the end of the run. -/
def deadNode : Node :=
  { relayNode "b" "203.0.113.2" with
    appliedVersion := 1, lastHeartbeatAt := some 31, updatedAt := 31 }

/-- The nodes at the end of the run. -/
def relayNodesAfter : List Node :=
  [{ relayNode "a" "203.0.113.1" with
      appliedVersion := 2, lastHeartbeatAt := some 30, updatedAt := 30 }, deadNode]

/-- What the run has come to: node `a` serves, node `b` has failed, nothing is under way, and the
round reports no error. -/
theorem relayRun_reached :
    let s := run step initial relayRun
    (s.handling "relay").site? = some relaySite ∧ s.assigned relaySite = relayNodesAfter ∧
      (s.roundSite plainCall (s.handling "relay")).1 = .ok () ∧
      (∀ task ∈ s.store.deploymentTasks.rows, task.status.active = false) ∧
      (relayNodesAfter.map fun node =>
        (nodeUpgradeInProgress s.reads node, standing s.reads relaySite node)) =
        [(.ok false, .ok .healthy), (.ok false, .ok (.converging true))] ∧
      ((s.health.nodeHealthOf "b").dnsEligible = false ∧
        (s.health.nodeHealthOf "b").consecutiveFailures = 3) ∧
      ((step s (.round "relay" plainCall)).zones "zone").records.rows.map
          Cloudflare.DNSRecord.comment =
        ["cdn-platform:site=relay;node=a", "cdn-platform:site=relay;node=b"] ∧
      ((step s (.round "relay" plainCall)).zones "zone").records.rows.all recordIsA = true := by
  decide +kernel

/-- Node `b` keeps its record after the round, and holds back every later one. -/
theorem relayRun_stays :
    ¬Along step LeavesDNS initial (relayRun ++ [.round "relay" plainCall]) := by
  intro h
  have hlaw := ((along_append _ _ _).mp h).2.1
  obtain ⟨hsite, hassigned, hok, htasks, hnodes, hhealth, hcomments, hA⟩ := relayRun_reached
  generalize run step initial relayRun = s at *
  obtain ⟨⟨hidleA, hstandingA⟩, ⟨hidleB, -⟩⟩ : (_ ∧ _) ∧ (_ ∧ _) := by
    simpa only [relayNodesAfter, List.map_cons, List.map_nil, List.cons.injEq, Prod.mk.injEq,
      and_true] using hnodes
  have hcalm : Calm s relaySite := by
    refine ⟨fun task htask hactive => ?_, fun node hnode => ?_, ?_⟩
    · rw [htasks task htask] at hactive
      cases hactive
    · rw [hassigned] at hnode
      simp only [relayNodesAfter, List.mem_cons, List.not_mem_nil, or_false] at hnode
      rcases hnode with rfl | rfl
      · rw [Upgrading, hidleA]
        rintro ⟨⟩
      · rw [Upgrading, hidleB]
        rintro ⟨⟩
    · rw [hassigned]
      exact ⟨_, List.mem_cons_self, standing_says hstandingA⟩
  have hgone := hlaw relaySite hsite hok hcalm
  obtain ⟨r, hr, hcomment⟩ : ∃ r ∈ ((step s (.round "relay" plainCall)).zones "zone").records.rows,
      r.comment = "cdn-platform:site=relay;node=b" := by
    have hmem : "cdn-platform:site=relay;node=b" ∈
        ((step s (.round "relay" plainCall)).zones "zone").records.rows.map
          Cloudflare.DNSRecord.comment := by
      rw [hcomments]
      simp
    exact List.mem_map.mp hmem
  have hdead : deadNode ∈ s.assigned relaySite := by
    rw [hassigned]
    exact List.mem_cons_of_mem _ List.mem_cons_self
  have hfailed : Failed s deadNode := ⟨rfl, hhealth.1, le_of_eq hhealth.2.symm⟩
  refine hgone deadNode hdead hfailed r hr (List.all_eq_true.mp hA r hr) ?_
  rw [hcomment]
  decide

end SimpleCdn.Health.Failover
