import SimpleCdn.Nginx.Render

/-!
# What a desired state serves

`Renders d site bundle` says that the desired state `d` holds for this site what the renderer
makes of it and nothing else: its HTTP block, its TCP listeners and its certificate.  `serves`
says that something in a desired state carries the identifier of a site.

The lemmas below say which sites a rendered document holds, so that the proofs about publishing
never look into the renderer.
-/

namespace SimpleCdn

namespace DesiredState

/-- A server, upstream or certificate of the site `id` is in the state. -/
def serves (d : DesiredState) (id : String) : Prop :=
  (∃ item ∈ d.nginxConfig.sites, item.id = id) ∨
    (∃ server ∈ d.nginxStreamConfig, server.siteID = id) ∨ (d.certificates.lookup id).isSome

instance (d : DesiredState) (id : String) : Decidable (d.serves id) :=
  inferInstanceAs (Decidable (_ ∨ _ ∨ _))

/-- The state holds exactly what rendering the site with this certificate gives. -/
structure Renders (d : DesiredState) (site : Site) (bundle : Option TLSBundle) : Prop where
  http : ∀ item, (item ∈ d.nginxConfig.sites ∧ item.id = site.id) ↔
    (Nginx.httpEnabled site = true ∧ Nginx.renderSite site = .ok item)
  stream : ∀ server, (server ∈ d.nginxStreamConfig ∧ server.siteID = site.id) ↔
    server ∈ Nginx.siteServers site
  certificate : d.certificates.lookup site.id = bundle

end DesiredState

namespace Nginx

/-! ### The HTTP document -/

theorem renderSite_id {site : Site} {item : HTTPSite} (h : renderSite site = .ok item) :
    item.id = site.id := by
  simp only [renderSite, bind_eq_ok, pure_eq_ok] at h
  obtain ⟨_, -, _, -, _, -, _, -, _, -, _, -, rfl⟩ := h
  rfl

/-- The blocks of the HTTP document are those of the enabled HTTP sites. -/
theorem mem_renderSites {sites : List Site} {items : List HTTPSite}
    (h : renderSites sites = .ok items) (item : HTTPSite) :
    item ∈ items ↔ ∃ site ∈ sites, httpEnabled site = true ∧ renderSite site = .ok item := by
  induction sites generalizing items with
  | nil =>
    obtain rfl := Except.ok.inj h
    simp
  | cons site sites ih =>
    simp only [renderSites] at h
    split at h
    · next henabled =>
      simp only [bind_eq_ok, pure_eq_ok] at h
      obtain ⟨first, hfirst, rest, hrest, rfl⟩ := h
      simp only [List.mem_cons, ih hrest, exists_eq_or_imp, henabled, true_and, hfirst,
        Except.ok.injEq]
      rw [eq_comm]
    · next hdisabled =>
      simp only [List.mem_cons, ih h, exists_eq_or_imp, hdisabled, false_and, false_or,
        Bool.false_eq_true]

theorem mem_renderWithOptions {sites : List Site}
    {securityPolicies : Option (List SecurityPolicy)}
    {rateLimitPolicies : Option (List RateLimitPolicy)} {cacheSizeGB : Int} {config : HTTPConfig}
    (h : renderWithOptions sites securityPolicies rateLimitPolicies cacheSizeGB = .ok config)
    (item : HTTPSite) :
    item ∈ config.sites ↔
      ∃ site ∈ sites, httpEnabled site = true ∧ renderSite site = .ok item := by
  simp only [renderWithOptions, bind_eq_ok, pure_eq_ok] at h
  obtain ⟨_, -, _, -, items, hitems, rfl⟩ := h
  rw [List.mem_insertionSort]
  exact mem_renderSites hitems item

/-! ### The stream document -/

theorem siteServers_id {site : Site} {server : StreamServer} (h : server ∈ siteServers site) :
    server.siteID = site.id := by
  unfold siteServers at h
  split at h
  · obtain ⟨forward, -, rfl⟩ := List.mem_map.mp h
    rfl
  · cases h

theorem collectServers_eq_ok {owners : List (Int × String)} {named : List (String × StreamServer)}
    {servers : List StreamServer} (h : collectServers owners named = .ok servers) :
    servers = named.map Prod.snd := by
  induction named generalizing owners servers with
  | nil =>
    obtain rfl := Except.ok.inj h
    rfl
  | cons entry rest ih =>
    obtain ⟨name, server⟩ := entry
    simp only [collectServers] at h
    split at h
    · cases h
    · simp only [bind_eq_ok, pure_eq_ok] at h
      obtain ⟨servers', hrest, rfl⟩ := h
      rw [ih hrest]
      rfl

/-- The listeners of the stream document are those of the sites. -/
theorem mem_renderStream {sites : List Site} {config : StreamConfig}
    (h : renderStream sites = .ok config) (server : StreamServer) :
    server ∈ config ↔ ∃ site ∈ sites, server ∈ siteServers site := by
  simp only [renderStream, bind_eq_ok, pure_eq_ok] at h
  obtain ⟨servers, hservers, -, -, rfl⟩ := h
  rw [List.mem_insertionSort, collectServers_eq_ok hservers]
  simp only [namedServers, List.map_flatMap, List.map_map, List.mem_flatMap, List.mem_map,
    Function.comp_apply, exists_eq_right]

end Nginx

end SimpleCdn
