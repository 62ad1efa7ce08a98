import Mathlib.Data.List.Dedup
import SimpleCdn.Nginx.Serving

/-!
# The ports of a node

The publisher computes the ports of a node from its sites, and the two configurations rendered
from the same sites listen on ports of their own.  Where both configurations can be rendered the
ports are the same: an HTTP node always has its default server, and a node with TCP-only sites has
no HTTP server at all.
-/

namespace SimpleCdn.Nginx

/-- A `listen` directive. -/
structure Listen where
  port : Int
  ssl : Bool
  defaultServer : Bool
  deriving DecidableEq, Repr

/-- The default servers, the one for TLS only when there are sites, and both servers of a site. -/
def httpListens (config : HTTPConfig) : List Listen :=
  (if config.base.defaultHTTP then [⟨80, false, true⟩] else []) ++
    (if config.base.hasSites then [⟨443, true, true⟩] else []) ++
    config.sites.flatMap fun _ => [⟨80, false, false⟩, ⟨443, true, false⟩]

def streamListens (config : StreamConfig) : List Listen :=
  config.map fun server => ⟨server.listenPort, server.listenTLS, false⟩

def listens (config : HTTPConfig) (streamConfig : StreamConfig) : List Listen :=
  httpListens config ++ streamListens streamConfig

/-- The ports of the sites, before the publisher adds the one of the default server. -/
def sitePorts (sites : List Site) : List Int :=
  (sites.filter Site.enabled).flatMap fun site =>
    (if site.tcpOnly then [] else [80, 443]) ++ site.tcpForwards.map TCPForward.listenPort

section

variable {sites : List Site} {securityPolicies : Option (List SecurityPolicy)}
  {rateLimitPolicies : Option (List RateLimitPolicy)} {cacheSizeGB : Int}
  {config : HTTPConfig} {streamConfig : StreamConfig} {port : Int}

theorem mem_sitePorts : port ∈ sitePorts sites ↔
    (∃ site ∈ sites, httpEnabled site = true ∧ (port = 80 ∨ port = 443)) ∨
      ∃ site ∈ sites, ∃ server ∈ siteServers site, server.listenPort = port := by
  simp only [sitePorts, List.mem_flatMap, List.mem_filter, List.mem_append]
  constructor
  · rintro ⟨site, ⟨hsite, henabled⟩, hport | hport⟩
    · cases htcp : site.tcpOnly with
      | true =>
        rw [htcp] at hport
        cases hport
      | false =>
        rw [htcp] at hport
        exact .inl ⟨site, hsite, by rw [httpEnabled, henabled, htcp]; rfl, by simpa using hport⟩
    · obtain ⟨forward, hforward, rfl⟩ := List.mem_map.mp hport
      refine .inr ⟨site, hsite, streamServer site forward, ?_, rfl⟩
      rw [siteServers, if_pos henabled]
      exact List.mem_map_of_mem hforward
  · rintro (⟨site, hsite, hhttp, hport⟩ | ⟨site, hsite, server, hserver, rfl⟩)
    · rw [httpEnabled, Bool.and_eq_true, Bool.not_eq_true'] at hhttp
      refine ⟨site, ⟨hsite, hhttp.1⟩, .inl ?_⟩
      rw [hhttp.2]
      simpa using hport
    · rw [siteServers] at hserver
      split at hserver
      · next henabled =>
        obtain ⟨forward, hforward, rfl⟩ := List.mem_map.mp hserver
        exact ⟨site, ⟨hsite, henabled⟩, .inr (List.mem_map_of_mem hforward)⟩
      · cases hserver

/-- A port of a node without TCP-only sites comes from an HTTP site, which also listens on 80. -/
theorem http_mem_sitePorts (hhttp : sites.any Site.tcpOnly = false) (h : port ∈ sitePorts sites) :
    80 ∈ sitePorts sites := by
  obtain ⟨site, hsite, -⟩ := List.mem_flatMap.mp h
  obtain ⟨hmem, henabled⟩ := List.mem_filter.mp hsite
  have hsiteHTTP : site.tcpOnly = false := by
    rw [List.any_eq_false] at hhttp
    simpa using hhttp site hmem
  refine mem_sitePorts.mpr (.inl ⟨site, hmem, ?_, .inl rfl⟩)
  rw [httpEnabled, henabled, hsiteHTTP]
  rfl

theorem mem_requiredPublicPorts : port ∈ requiredPublicPorts sites ↔
    port ∈ sitePorts sites ∨ (port = 80 ∧ sites.any Site.tcpOnly = false) := by
  have hports : port ∈ requiredPublicPorts sites ↔
      port ∈ if (sitePorts sites).isEmpty && !sites.any Site.tcpOnly then [80]
        else sitePorts sites := by
    rw [requiredPublicPorts, List.mem_dedup, List.mem_insertionSort]
    rfl
  rw [hports]
  cases htcp : sites.any Site.tcpOnly with
  | true => simp
  | false =>
    by_cases hempty : sitePorts sites = []
    · simp [hempty]
    · obtain ⟨first, hfirst⟩ := List.exists_mem_of_ne_nil _ hempty
      have h80 := http_mem_sitePorts htcp hfirst
      rw [if_neg (by simp [hempty])]
      constructor
      · exact .inl
      · rintro (hport | ⟨rfl, -⟩)
        · exact hport
        · exact h80

theorem renderWithOptions_servers
    (h : renderWithOptions sites securityPolicies rateLimitPolicies cacheSizeGB = .ok config) :
    config.base.defaultHTTP = !sites.any Site.tcpOnly ∧
      config.base.hasSites = !config.sites.isEmpty := by
  simp only [renderWithOptions, bind_eq_ok, pure_eq_ok] at h
  obtain ⟨_, -, _, -, items, -, rfl⟩ := h
  exact ⟨rfl, rfl⟩

theorem exists_renderSite {items : List HTTPSite} (h : renderSites sites = .ok items) {site : Site}
    (hsite : site ∈ sites) (henabled : httpEnabled site = true) :
    ∃ item, renderSite site = .ok item := by
  induction sites generalizing items with
  | nil => cases hsite
  | cons first rest ih =>
    rw [renderSites] at h
    rcases List.mem_cons.mp hsite with rfl | hrest
    · rw [if_pos henabled] at h
      simp only [bind_eq_ok] at h
      obtain ⟨item, hitem, -⟩ := h
      exact ⟨item, hitem⟩
    · split at h
      · simp only [bind_eq_ok] at h
        obtain ⟨-, -, others, hothers, -⟩ := h
        exact ih hothers hrest
      · exact ih h hrest

/-- A document has a site block exactly if there is an enabled HTTP site. -/
theorem exists_httpEnabled_iff
    (h : renderWithOptions sites securityPolicies rateLimitPolicies cacheSizeGB = .ok config) :
    (∃ item, item ∈ config.sites) ↔ ∃ site ∈ sites, httpEnabled site = true := by
  constructor
  · rintro ⟨item, hitem⟩
    obtain ⟨site, hsite, henabled, -⟩ := (mem_renderWithOptions h item).mp hitem
    exact ⟨site, hsite, henabled⟩
  · rintro ⟨site, hsite, henabled⟩
    have hrendered : ∃ items, renderSites sites = .ok items := by
      simp only [renderWithOptions, bind_eq_ok] at h
      obtain ⟨-, -, -, -, items, hitems, -⟩ := h
      exact ⟨items, hitems⟩
    obtain ⟨items, hitems⟩ := hrendered
    obtain ⟨item, hitem⟩ := exists_renderSite hitems hsite henabled
    exact ⟨item, (mem_renderWithOptions h item).mpr ⟨site, hsite, henabled, hitem⟩⟩

theorem mem_httpListens
    (h : renderWithOptions sites securityPolicies rateLimitPolicies cacheSizeGB = .ok config) :
    (∃ listen ∈ httpListens config, listen.port = port) ↔
      (∃ site ∈ sites, httpEnabled site = true ∧ (port = 80 ∨ port = 443)) ∨
        (port = 80 ∧ sites.any Site.tcpOnly = false) := by
  obtain ⟨hdefault, hhas⟩ := renderWithOptions_servers h
  have hsites := exists_httpEnabled_iff h
  rw [httpListens, hdefault, hhas]
  constructor
  · rintro ⟨listen, hlisten, rfl⟩
    rcases List.mem_append.mp hlisten with hservers | hblock
    · rcases List.mem_append.mp hservers with hdefault | htls
      · cases htcp : sites.any Site.tcpOnly with
        | true => simp [htcp] at hdefault
        | false =>
          rw [htcp] at hdefault
          obtain rfl := List.mem_singleton.mp hdefault
          exact .inr ⟨rfl, rfl⟩
      · split at htls
        · next hany =>
          obtain rfl := List.mem_singleton.mp htls
          obtain ⟨site, hsite, henabled⟩ := hsites.mp
            (List.exists_mem_of_ne_nil _ fun hnil => by simp [hnil] at hany)
          exact .inl ⟨site, hsite, henabled, .inr rfl⟩
        · cases htls
    · obtain ⟨item, hitem, hlisten⟩ := List.mem_flatMap.mp hblock
      obtain ⟨site, hsite, henabled⟩ := hsites.mp ⟨item, hitem⟩
      refine .inl ⟨site, hsite, henabled, ?_⟩
      rcases List.mem_pair.mp hlisten with rfl | rfl
      · exact .inl rfl
      · exact .inr rfl
  · rintro (⟨site, hsite, henabled, hport⟩ | ⟨rfl, htcp⟩)
    · obtain ⟨item, hitem⟩ := hsites.mpr ⟨site, hsite, henabled⟩
      have hblock : ∀ listen ∈ [Listen.mk 80 false false, ⟨443, true, false⟩], listen ∈
          config.sites.flatMap fun _ => [Listen.mk 80 false false, ⟨443, true, false⟩] :=
        fun listen hlisten => List.mem_flatMap.mpr ⟨item, hitem, hlisten⟩
      rcases hport with rfl | rfl
      · exact ⟨⟨80, false, false⟩, List.mem_append_right _ (hblock _ (by decide)), rfl⟩
      · exact ⟨⟨443, true, false⟩, List.mem_append_right _ (hblock _ (by decide)), rfl⟩
    · refine ⟨⟨80, false, true⟩, List.mem_append_left _ (List.mem_append_left _ ?_), rfl⟩
      rw [htcp]
      exact List.mem_singleton.mpr rfl

theorem mem_streamListens (h : renderStream sites = .ok streamConfig) :
    (∃ listen ∈ streamListens streamConfig, listen.port = port) ↔
      ∃ site ∈ sites, ∃ server ∈ siteServers site, server.listenPort = port := by
  simp only [streamListens, List.mem_map, exists_exists_and_eq_and, mem_renderStream h]
  constructor
  · rintro ⟨server, ⟨site, hsite, hserver⟩, hport⟩
    exact ⟨site, hsite, server, hserver, hport⟩
  · rintro ⟨site, hsite, server, hserver, hport⟩
    exact ⟨server, ⟨site, hsite, hserver⟩, hport⟩

/-- The ports of a node are those its configurations listen on. -/
theorem requiredPublicPorts_listens
    (h : renderWithOptions sites securityPolicies rateLimitPolicies cacheSizeGB = .ok config)
    (hstream : renderStream sites = .ok streamConfig) (port : Int) :
    port ∈ requiredPublicPorts sites ↔
      ∃ listen ∈ listens config streamConfig, listen.port = port := by
  have hlistens : (∃ listen ∈ listens config streamConfig, listen.port = port) ↔
      (∃ listen ∈ httpListens config, listen.port = port) ∨
        ∃ listen ∈ streamListens streamConfig, listen.port = port := by
    simp only [listens, List.mem_append, or_and_right, exists_or]
  rw [hlistens, mem_httpListens h, mem_streamListens hstream, mem_requiredPublicPorts,
    mem_sitePorts]
  exact or_right_comm

end

/-- An HTTP site that also forwards a port. -/
def gameSite : Site where
  id := "game"
  name := "game"
  zoneID := "zone"
  domains := ["game.example.com"]
  nodes := ["a"]
  primaryOrigin := ⟨"http://198.51.100.1", "", "", true⟩
  backupOrigin := none
  streamPaths := []
  passthrough := false
  clientMaxBodySizeMB := 0
  clientKeepaliveTimeoutSeconds := 0
  readWriteTimeoutSeconds := 0
  dnsTTLSeconds := none
  tcpOnly := false
  tcpForwards := [⟨"game", 7777, false, "198.51.100.1", 7777, false, "", 0, 0⟩]
  cacheGeneration := 1
  configVersion := 1
  published := true
  enabled := true
  deleting := false
  createdAt := 0
  updatedAt := 0

/-- A node with the site and a disabled one opens 80, 443 and the forwarded port. -/
theorem requiredPublicPorts_gameSite :
    ∃ config streamConfig,
      renderWithOptions [gameSite, { gameSite with id := "off", enabled := false }] none none 1 =
        .ok config ∧
      renderStream [gameSite, { gameSite with id := "off", enabled := false }] =
        .ok streamConfig ∧
      (7777 ∈ requiredPublicPorts [gameSite, { gameSite with id := "off", enabled := false }] ↔
        ∃ listen ∈ listens config streamConfig, listen.port = 7777) := by
  obtain ⟨config, hconfig⟩ : ∃ config, renderWithOptions
      [gameSite, { gameSite with id := "off", enabled := false }] none none 1 = .ok config := by
    refine isOk_iff.mp ?_
    decide +kernel
  obtain ⟨streamConfig, hstream⟩ : ∃ streamConfig, renderStream
      [gameSite, { gameSite with id := "off", enabled := false }] = .ok streamConfig := by
    refine isOk_iff.mp ?_
    decide +kernel
  exact ⟨config, streamConfig, hconfig, hstream, requiredPublicPorts_listens hconfig hstream 7777⟩

end SimpleCdn.Nginx
