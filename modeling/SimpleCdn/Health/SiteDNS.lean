import Mathlib.Data.List.Count
import SimpleCdn.Domain.SiteLists
import SimpleCdn.Health.Probes
import SimpleCdn.Integrations.Cloudflare
import SimpleCdn.Nginx.Document
import SimpleCdn.Store.Sites

/-!
# The DNS records of a site

`reconcileSiteDNSOutcome` goes through the assigned nodes of a site.  As long as one of them is
converging, to a new version or to a new agent, it leaves DNS alone.  Otherwise it asks the provider
for the records of the nodes that are healthy, for no records when no node is active, and for
nothing at all when every active node is unhealthy.
-/

namespace SimpleCdn.Health

/-- What the store answers; any read may fail. -/
structure Reads where
  hasActiveNodeUpgrade : String → Except String Bool
  desiredVersion : String → Except String Nat
  hasActiveNodePublication : String → Except String Bool
  nodeHealth : String → Except String Probed
  nodeState : String → Except String DesiredState
  siteNodeHealth : String → String → Except String Probed

/-- `HasSiteHealth`: the block of a site prints its health location. -/
def hasSiteHealth (configuration : HTTPConfig) (siteID : String) : Bool :=
  configuration.sites.any fun block => block.id = siteID

/-- `nodeUpgradeInProgress` -/
def nodeUpgradeInProgress (reads : Reads) (node : Node) : Except String Bool :=
  if node.activeUpgradeID ≠ "" then .ok true else reads.hasActiveNodeUpgrade node.id

/-- What a node counts as, for a site. -/
inductive Standing
  /-- Not active, and not upgrading. -/
  | idle
  | converging (active : Bool)
  | unhealthy
  | healthy
  deriving DecidableEq, Repr

def standing (reads : Reads) (site : Site) (node : Node) : Except String Standing := do
  let upgrading ← nodeUpgradeInProgress reads node
  if node.status ≠ .active then
    return if upgrading then .converging false else .idle
  else if upgrading then return .converging true
  else
    let desiredVersion ← reads.desiredVersion node.id
    if desiredVersion = 0 ∨ node.appliedVersion < desiredVersion then return .converging true
    else
      let publishing ← reads.hasActiveNodePublication node.id
      if publishing then return .converging true
      else
        let nodeHealth ← reads.nodeHealth node.id
        if nodeHealth.dnsEligible = false then return .unhealthy
        else
          let state ← reads.nodeState node.id
          if hasSiteHealth state.nginxConfig site.id then
            let siteHealth ← reads.siteNodeHealth site.id node.id
            return if siteHealth.dnsEligible then .healthy else .unhealthy
          else return .healthy

structure Survey where
  healthy : List Node
  activeAssigned : Nat
  convergingAssigned : Nat

def Survey.add (survey : Survey) (node : Node) : Standing → Survey
  | .idle => survey
  | .converging active =>
    { survey with
      activeAssigned := survey.activeAssigned + if active then 1 else 0
      convergingAssigned := survey.convergingAssigned + 1 }
  | .unhealthy => { survey with activeAssigned := survey.activeAssigned + 1 }
  | .healthy =>
    { survey with
      healthy := survey.healthy ++ [node]
      activeAssigned := survey.activeAssigned + 1 }

def surveyNode (reads : Reads) (site : Site) (survey : Survey) (node : Node) :
    Except String Survey := do
  let standing ← standing reads site node
  return survey.add node standing

/-- The assigned nodes that the list has; of two with one identifier the last counts. -/
def assignedNodes (site : Site) (nodes : List Node) : List Node :=
  site.nodes.filterMap fun nodeID => nodes.reverse.find? fun node => node.id = nodeID

def siteOwner (site : Site) : String :=
  "site=" ++ site.id

def siteComment (site : Site) (node : Node) : String :=
  Cloudflare.managedRecordPrefix ++ "site=" ++ site.id ++ ";node=" ++ node.id

def siteRecord (site : Site) (ttl : Int) (node : Node) (domainName : String) :
    Cloudflare.DNSRecord :=
  ⟨"", "", domainName, node.publicIPv4, siteComment site node, ttl, false⟩

/-- What a site's DNS comes to: `desired` is what the provider is asked for, if it is called. -/
structure SiteDNSOutcome where
  noHealthy : Bool
  clearsAlert : Bool
  desired : Option (List Cloudflare.DNSRecord)

/-- `reconcileSiteDNSOutcome`, up to the call of the provider. -/
def siteDNSOutcome (reads : Reads) (ttl : Int) (site : Site) (nodes : List Node) :
    Except String SiteDNSOutcome := do
  let survey ← (assignedNodes site nodes).foldlM (surveyNode reads site) ⟨[], 0, 0⟩
  if survey.convergingAssigned > 0 then return ⟨false, true, none⟩
  else if survey.healthy = [] then
    return if survey.activeAssigned = 0 then ⟨false, true, some []⟩ else ⟨true, false, none⟩
  else
    return ⟨false, true, some (survey.healthy.flatMap fun node =>
      site.domains.map (siteRecord site ttl node))⟩

/-! ### Which nodes are healthy -/

/-- The node may serve the site. -/
structure Fit (reads : Reads) (site : Site) (node : Node) : Prop where
  active : node.status = .active
  notUpgrading : node.activeUpgradeID = "" ∧ reads.hasActiveNodeUpgrade node.id = .ok false
  applied : ∃ version, reads.desiredVersion node.id = .ok version ∧ version ≠ 0 ∧
    version ≤ node.appliedVersion
  notPublishing : reads.hasActiveNodePublication node.id = .ok false
  nodeEligible : ∃ health, reads.nodeHealth node.id = .ok health ∧ health.dnsEligible = true
  siteEligible : ∃ state, reads.nodeState node.id = .ok state ∧
    (hasSiteHealth state.nginxConfig site.id = true →
      ∃ health, reads.siteNodeHealth site.id node.id = .ok health ∧ health.dnsEligible = true)

/-- The site's lists are those that `NormalizeAndValidateSite` has made. -/
def Accepted (toLower : Char → Char) (parsesIP : String → Bool) (site : Site) : Prop :=
  (∃ domains, normalizeDomains toLower parsesIP domains = .ok site.domains) ∧
    ∃ nodes, normalizeNodeIDs nodes = .ok site.nodes

section

variable {reads : Reads} {site : Site} {node : Node} {nodes : List Node} {ttl : Int}

/-- The upgrade of an assigned node is read, and is under way. -/
def Upgrading (reads : Reads) (node : Node) : Prop :=
  nodeUpgradeInProgress reads node = .ok true

theorem nodeUpgradeInProgress_false :
    nodeUpgradeInProgress reads node = .ok false ↔
      node.activeUpgradeID = "" ∧ reads.hasActiveNodeUpgrade node.id = .ok false := by
  unfold nodeUpgradeInProgress
  split
  · next h => exact iff_of_false nofun fun h' => h h'.1
  · next h => exact ⟨fun h' => ⟨not_not.mp h, h'⟩, fun h' => h'.2⟩

/-- The node has a version yet to apply, or a publication under way. -/
def Behind (reads : Reads) (node : Node) : Prop :=
  node.status = .active ∧
    ((∃ version, reads.desiredVersion node.id = .ok version ∧
        (version = 0 ∨ node.appliedVersion < version)) ∨
      reads.hasActiveNodePublication node.id = .ok true)

/-- What the standing of a node says. -/
def Standing.Says (reads : Reads) (site : Site) (node : Node) : Standing → Prop
  | .idle => node.status ≠ .active ∧ ¬Upgrading reads node
  | .converging active =>
    (active = true ↔ node.status = .active) ∧ (Upgrading reads node ∨ Behind reads node)
  | .unhealthy => node.status = .active ∧ ¬Upgrading reads node
  | .healthy => Fit reads site node

theorem standing_says {result : Standing} (h : standing reads site node = .ok result) :
    result.Says reads site node := by
  simp only [standing, bind_eq_ok] at h
  obtain ⟨upgrading, hupgrading, h⟩ := h
  have hnot : upgrading = false → ¬Upgrading reads node := by
    rintro rfl hup
    rw [Upgrading, hupgrading] at hup
    cases hup
  split at h
  · next hstatus =>
    cases upgrading with
    | true =>
      obtain rfl := Except.ok.inj h
      exact ⟨iff_of_false Bool.false_ne_true hstatus, .inl hupgrading⟩
    | false =>
      obtain rfl := Except.ok.inj h
      exact ⟨hstatus, hnot rfl⟩
  · next hstatus =>
    have hactive : node.status = .active := not_not.mp hstatus
    cases upgrading with
    | true =>
      obtain rfl := Except.ok.inj h
      exact ⟨iff_of_true rfl hactive, .inl hupgrading⟩
    | false =>
      simp only [Bool.false_eq_true, if_false, bind_eq_ok] at h
      obtain ⟨version, hversion, h⟩ := h
      split at h
      · next hbehind =>
        obtain rfl := Except.ok.inj h
        exact ⟨iff_of_true rfl hactive, .inr ⟨hactive, .inl ⟨version, hversion, hbehind⟩⟩⟩
      · next hcurrent =>
        simp only [not_or, Nat.not_lt] at hcurrent
        obtain ⟨publishing, hpublishing, h⟩ := bind_eq_ok.mp h
        cases publishing with
        | true =>
          obtain rfl := Except.ok.inj h
          exact ⟨iff_of_true rfl hactive, .inr ⟨hactive, .inr hpublishing⟩⟩
        | false =>
          simp only [Bool.false_eq_true, if_false, bind_eq_ok] at h
          obtain ⟨health, hhealth, h⟩ := h
          split at h
          · obtain rfl := Except.ok.inj h
            exact ⟨hactive, hnot rfl⟩
          · next heligible =>
            obtain ⟨state, hstate, h⟩ := bind_eq_ok.mp h
            have hfit : (hasSiteHealth state.nginxConfig site.id = true →
                ∃ health, reads.siteNodeHealth site.id node.id = .ok health ∧
                  health.dnsEligible = true) → Fit reads site node := fun hsite =>
              ⟨hactive, nodeUpgradeInProgress_false.mp hupgrading,
                ⟨version, hversion, hcurrent.1, hcurrent.2⟩, hpublishing,
                ⟨health, hhealth, Bool.not_eq_false _ ▸ heligible⟩, ⟨state, hstate, hsite⟩⟩
            split at h
            · obtain ⟨siteHealth, hsiteHealth, h⟩ := bind_eq_ok.mp h
              cases hsite : siteHealth.dnsEligible with
              | true =>
                rw [hsite, if_pos rfl] at h
                obtain rfl := Except.ok.inj h
                exact hfit fun _ => ⟨siteHealth, hsiteHealth, hsite⟩
              | false =>
                rw [hsite, if_neg Bool.false_ne_true] at h
                obtain rfl := Except.ok.inj h
                exact ⟨hactive, hnot rfl⟩
            · next hmarker =>
              obtain rfl := Except.ok.inj h
              exact hfit fun hmarked => absurd hmarked hmarker

theorem standing_of_fit (h : Fit reads site node) : standing reads site node = .ok .healthy := by
  obtain ⟨version, hversion, hpositive, happlied⟩ := h.applied
  obtain ⟨health, hhealth, heligible⟩ := h.nodeEligible
  obtain ⟨state, hstate, hsite⟩ := h.siteEligible
  have hnot : ¬(version = 0 ∨ node.appliedVersion < version) := by omega
  refine bind_eq_ok.mpr ⟨false, nodeUpgradeInProgress_false.mpr h.notUpgrading, ?_⟩
  rw [if_neg (not_not.mpr h.active), if_neg Bool.false_ne_true]
  refine bind_eq_ok.mpr ⟨version, hversion, ?_⟩
  rw [if_neg hnot]
  refine bind_eq_ok.mpr ⟨false, h.notPublishing, ?_⟩
  rw [if_neg Bool.false_ne_true]
  refine bind_eq_ok.mpr ⟨health, hhealth, ?_⟩
  rw [heligible, if_neg (by decide)]
  refine bind_eq_ok.mpr ⟨state, hstate, ?_⟩
  by_cases hmarker : hasSiteHealth state.nginxConfig site.id = true
  · obtain ⟨siteHealth, hsiteHealth, hsiteEligible⟩ := hsite hmarker
    rw [if_pos hmarker]
    refine bind_eq_ok.mpr ⟨siteHealth, hsiteHealth, ?_⟩
    rw [hsiteEligible, if_pos rfl]
    rfl
  · rw [if_neg hmarker]
    rfl

theorem standing_of_upgrading (h : Upgrading reads node) :
    ∃ active, standing reads site node = .ok (.converging active) := by
  by_cases hstatus : node.status = .active
  · refine ⟨true, bind_eq_ok.mpr ⟨true, h, ?_⟩⟩
    rw [if_neg (not_not.mpr hstatus), if_pos rfl]
    rfl
  · refine ⟨false, bind_eq_ok.mpr ⟨true, h, ?_⟩⟩
    rw [if_pos hstatus, if_pos rfl]
    rfl

/-- The reads of a node succeed; its state is there when it has a desired version. -/
structure Readable (reads : Reads) (site : Site) (node : Node) : Prop where
  upgrade : ∃ active, reads.hasActiveNodeUpgrade node.id = .ok active
  version : ∃ version, reads.desiredVersion node.id = .ok version ∧
    (version ≠ 0 → ∃ state, reads.nodeState node.id = .ok state)
  publication : ∃ active, reads.hasActiveNodePublication node.id = .ok active
  nodeHealth : ∃ health, reads.nodeHealth node.id = .ok health
  siteHealth : ∃ health, reads.siteNodeHealth site.id node.id = .ok health

theorem Readable.standing (h : Readable reads site node) :
    ∃ result, standing reads site node = .ok result := by
  obtain ⟨active, hactive⟩ := h.upgrade
  obtain ⟨version, hversion, hstate⟩ := h.version
  obtain ⟨publishing, hpublishing⟩ := h.publication
  obtain ⟨nodeHealth, hnodeHealth⟩ := h.nodeHealth
  obtain ⟨siteHealth, hsiteHealth⟩ := h.siteHealth
  obtain ⟨upgrading, hupgrading⟩ : ∃ upgrading, nodeUpgradeInProgress reads node = .ok upgrading := by
    unfold nodeUpgradeInProgress
    split
    · exact ⟨true, rfl⟩
    · exact ⟨active, hactive⟩
  unfold Health.standing
  rw [hupgrading]
  show ∃ result, (if node.status ≠ .active then _ else if upgrading = true then _ else _) = _
  split
  · exact ⟨_, rfl⟩
  · split
    · exact ⟨_, rfl⟩
    · rw [hversion]
      show ∃ result, (if version = 0 ∨ node.appliedVersion < version then _ else _) = _
      split
      · exact ⟨_, rfl⟩
      · next hcurrent =>
        obtain ⟨state, hstate⟩ := hstate fun hzero => hcurrent (.inl hzero)
        rw [hpublishing]
        show ∃ result, (if publishing = true then _ else _) = _
        split
        · exact ⟨_, rfl⟩
        · rw [hnodeHealth]
          show ∃ result, (if nodeHealth.dnsEligible = false then _ else _) = _
          split
          · exact ⟨_, rfl⟩
          · rw [hstate]
            show ∃ result, (if hasSiteHealth state.nginxConfig site.id = true then _ else _) = _
            split
            · rw [hsiteHealth]
              exact ⟨_, rfl⟩
            · exact ⟨_, rfl⟩

/-! ### The survey -/

/-- What the survey has counted after these nodes. -/
structure Surveyed (reads : Reads) (site : Site) (done : List Node) (survey : Survey) : Prop where
  healthy : List.Sublist survey.healthy done
  fit : ∀ node ∈ done, node ∈ survey.healthy ↔ Fit reads site node
  idle : survey.activeAssigned = 0 → ∀ node ∈ done, node.status ≠ .active
  settled : survey.convergingAssigned = 0 ↔
    ∀ node ∈ done, ∀ active, standing reads site node ≠ .ok (.converging active)

theorem Surveyed.add {done : List Node} {survey : Survey} (hs : Surveyed reads site done survey)
    {result : Standing} (hresult : standing reads site node = .ok result) :
    Surveyed reads site (done ++ [node]) (survey.add node result) := by
  have hsay := standing_says hresult
  have hfit : Fit reads site node ↔ result = .healthy := by
    refine ⟨fun hf => ?_, fun heq => ?_⟩
    · exact Except.ok.inj (hresult.symm.trans (standing_of_fit hf))
    · rw [heq] at hsay
      exact hsay
  have hmem : ∀ {n : Node}, n ∈ done ++ [node] ↔ n ∈ done ∨ n = node := by simp
  have hhealthy : ∀ n, n ∈ (survey.add node result).healthy ↔
      n ∈ survey.healthy ∨ (n = node ∧ result = .healthy) := by
    intro n
    cases result with
    | healthy => simp [Survey.add]
    | idle => simp [Survey.add]
    | converging active => simp [Survey.add]
    | unhealthy => simp [Survey.add]
  refine ⟨?_, fun n hn => ?_, fun hzero n hn => ?_, ?_⟩
  · cases result with
    | healthy => exact hs.healthy.append (List.Sublist.refl [node])
    | idle => exact hs.healthy.trans (List.sublist_append_left _ _)
    | converging active => exact hs.healthy.trans (List.sublist_append_left _ _)
    | unhealthy => exact hs.healthy.trans (List.sublist_append_left _ _)
  · rw [hhealthy]
    constructor
    · rintro (hin | ⟨rfl, hnow⟩)
      · exact (hs.fit n (hs.healthy.subset hin)).mp hin
      · exact hfit.mpr hnow
    · intro hf
      rcases hmem.mp hn with hn | rfl
      · exact .inl ((hs.fit n hn).mpr hf)
      · exact .inr ⟨rfl, hfit.mp hf⟩
  · cases result with
    | healthy => exact absurd hzero (Nat.succ_ne_zero _)
    | unhealthy => exact absurd hzero (Nat.succ_ne_zero _)
    | idle =>
      rcases hmem.mp hn with hn | rfl
      · exact hs.idle hzero n hn
      · exact hsay.1
    | converging active =>
      simp only [Survey.add, Nat.add_eq_zero_iff] at hzero
      rcases hmem.mp hn with hn | rfl
      · exact hs.idle hzero.1 n hn
      · intro hactive
        rw [hsay.1.mpr hactive] at hzero
        exact absurd hzero.2 (by decide)
  · -- A node that is not converging leaves the count alone.
    have hsame : (∀ active, result ≠ .converging active) →
        ((survey.add node result).convergingAssigned = 0 ↔ ∀ n ∈ done ++ [node], ∀ active,
          standing reads site n ≠ .ok (.converging active)) := by
      intro hnot
      have hcount : (survey.add node result).convergingAssigned = survey.convergingAssigned := by
        cases result with
        | converging active => exact absurd rfl (hnot active)
        | healthy => rfl
        | idle => rfl
        | unhealthy => rfl
      rw [hcount, hs.settled]
      refine ⟨fun h n hn => ?_, fun h n hn => h n (hmem.mpr (.inl hn))⟩
      rcases hmem.mp hn with hn | rfl
      · exact h n hn
      · rintro active heq
        exact hnot active (Except.ok.inj (hresult.symm.trans heq))
    cases result with
    | converging active =>
      refine iff_of_false (Nat.succ_ne_zero _) fun h => ?_
      exact h node (hmem.mpr (.inr rfl)) active hresult
    | healthy => exact hsame nofun
    | idle => exact hsame nofun
    | unhealthy => exact hsame nofun

theorem surveyed (found : List Node) {survey : Survey}
    (h : found.foldlM (surveyNode reads site) ⟨[], 0, 0⟩ = .ok survey) :
    Surveyed reads site found survey := by
  have hends := ends_foldlM (f := surveyNode reads site) (l := found) (b := ⟨[], 0, 0⟩)
    (E := fun _ => True) (P := Surveyed reads site) ?_ ?_
  · rw [h] at hends
    exact hends
  · intro done node rest survey _ hs
    refine ends_iff.mpr ⟨fun survey' hstep => ?_, fun _ _ => trivial⟩
    obtain ⟨result, hresult, hadd⟩ := bind_eq_ok.mp hstep
    obtain rfl := Except.ok.inj hadd
    exact hs.add hresult
  · exact ⟨List.Sublist.refl [], fun node hmem => absurd hmem List.not_mem_nil,
      fun _ node hmem => absurd hmem List.not_mem_nil,
      iff_of_true rfl fun node hmem => absurd hmem List.not_mem_nil⟩

theorem exists_survey {found : List Node} (h : ∀ node ∈ found, Readable reads site node) :
    ∃ survey, found.foldlM (surveyNode reads site) ⟨[], 0, 0⟩ = .ok survey := by
  have hends := ends_foldlM (f := surveyNode reads site) (l := found) (b := ⟨[], 0, 0⟩)
    (E := fun _ => False) (P := fun _ _ => True) ?_ trivial
  · cases hsurvey : found.foldlM (surveyNode reads site) ⟨[], 0, 0⟩ with
    | ok survey => exact ⟨survey, rfl⟩
    | error message =>
      rw [hsurvey] at hends
      exact hends.elim
  · intro done node rest survey hl _
    have hmem : node ∈ found := by
      rw [hl]
      exact List.mem_append_right _ List.mem_cons_self
    obtain ⟨result, hresult⟩ := (h node hmem).standing
    rw [surveyNode, hresult]
    trivial

theorem mem_assignedNodes :
    node ∈ assignedNodes site nodes →
      node ∈ nodes ∧ node.id ∈ site.nodes := by
  intro h
  obtain ⟨nodeID, hmem, hfind⟩ := List.mem_filterMap.mp h
  have hid : node.id = nodeID := by simpa using List.find?_some hfind
  exact ⟨List.mem_reverse.mp (List.mem_of_find?_eq_some hfind), hid ▸ hmem⟩

theorem nodup_assignedNodes (nodes : List Node) (h : site.nodes.Nodup) :
    ((assignedNodes site nodes).map Node.id).Nodup := by
  have hsub : List.Sublist ((assignedNodes site nodes).map Node.id) site.nodes := by
    unfold assignedNodes
    induction site.nodes with
    | nil => exact List.Sublist.refl []
    | cons nodeID rest ih =>
      rw [List.filterMap_cons]
      split
      · exact ih.trans (List.sublist_cons_self _ _)
      · next node hfind =>
        have hid : node.id = nodeID := by simpa using List.find?_some hfind
        rw [List.map_cons, hid]
        exact ih.cons_cons nodeID
  exact h.sublist hsub

theorem siteComment_inj {node node' : Node} (h : siteComment site node = siteComment site node') :
    node.id = node'.id :=
  String.append_right_inj _ |>.mp h

/-- One record for each node and domain. -/
theorem nodup_records {healthy : List Node} (hnodes : (healthy.map Node.id).Nodup)
    (hdomains : site.domains.Nodup) :
    ((healthy.flatMap fun node => site.domains.map (siteRecord site ttl node)).map fun record =>
      (record.comment, record.name)).Nodup := by
  rw [List.map_flatMap]
  refine List.nodup_flatMap.mpr ⟨fun node _ => ?_, ?_⟩
  · rw [List.map_map]
    exact hdomains.map fun name name' h => congrArg Prod.snd h
  · refine (List.pairwise_map.mp hnodes).imp fun {node node'} hne => ?_
    intro pair hpair hpair'
    simp only [List.mem_map, exists_exists_and_eq_and] at hpair hpair'
    obtain ⟨name, -, rfl⟩ := hpair
    obtain ⟨name', -, heq⟩ := hpair'
    exact hne (siteComment_inj (congrArg Prod.fst heq).symm)

end

/-! ### A site on one node -/

def shopNode : Node where
  id := "edge"
  name := "edge"
  publicIPv4 := "203.0.113.1"
  cacheMaxSizeGB := none
  nginxCapacity := ⟨0, 4096, 65536⟩
  status := .active
  monitorAutoPaused := false
  capabilities := []
  certFingerprint := some "fingerprint"
  agentVersion := ""
  agentSHA256 := ""
  activeUpgradeID := ""
  lastHeartbeatAt := none
  appliedVersion := 1
  lastError := ""
  createdAt := 0
  updatedAt := 0

def shopSite : Site :=
  SiteDraft.site
    { name := "shop"
      domains := ["shop.example.com"]
      nodes := ["edge"]
      primaryOrigin := ⟨"https://origin.example.com", "", "", true⟩
      backupOrigin := none
      passthrough := false
      clientMaxBodySizeMB := 128
      clientKeepaliveTimeoutSeconds := 120
      readWriteTimeoutSeconds := 120
      dnsTTLSeconds := none
      tcpOnly := false
      tcpForwards := []
      enabled := true } "s"

/-- A node state without a block for the site. -/
def bareState : DesiredState where
  version := 1
  nginxConfig := ⟨⟨none, none, ⟨false, false, false⟩, none, true, false⟩, []⟩
  nginxStreamConfig := []
  nginxMainConfig := ""
  nginxEventsConfig := ""
  nginxFragments := ⟨⟨none, none, ⟨false, false, false⟩, none, true, false⟩, [], [], []⟩
  publicPorts := [80]
  cacheMaxBytes := 0
  certificates := []

/-- Everything is in order with the node. -/
def calmReads : Reads where
  hasActiveNodeUpgrade _ := .ok false
  desiredVersion _ := .ok 1
  hasActiveNodePublication _ := .ok false
  nodeHealth _ := .ok ⟨0, 5, true, some 0, ""⟩
  nodeState _ := .ok bareState
  siteNodeHealth _ _ := .ok .zero

end SimpleCdn.Health
