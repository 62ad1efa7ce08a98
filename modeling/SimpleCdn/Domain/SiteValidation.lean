import SimpleCdn.Domain.Origins

/-!
# Accepting a site

`NormalizeAndValidateSite` brings every field of a site into the form in which it is stored and
checks it there: texts are trimmed, names lowered, zeros replaced by defaults, the Host header and
the TLS server names filled in from other fields.  Each part gives back unchanged what it has
returned before, so a stored site can always be saved again.
-/

namespace SimpleCdn

/-! ### Lists -/

/-- A loop that adds to what it has done a value it would add again unchanged returns its result
when it is run over that. -/
theorem foldlM_idem {α : Type} {f : List α → α → Except String (List α)}
    (hstep : ∀ done x done', f done x = .ok done' →
      ∃ y, done' = done ++ [y] ∧ f done y = .ok done')
    {l done result : List α} (h : l.foldlM f done = .ok result) :
    ∃ ys, result = done ++ ys ∧ ys.foldlM f done = .ok result := by
  induction l generalizing done with
  | nil =>
    obtain rfl := Except.ok.inj h
    exact ⟨[], (List.append_nil _).symm, rfl⟩
  | cons x l ih =>
    rw [List.foldlM_cons, bind_eq_ok] at h
    obtain ⟨done', hx, h⟩ := h
    obtain ⟨y, rfl, hy⟩ := hstep _ _ _ hx
    obtain ⟨ys, rfl, hys⟩ := ih h
    refine ⟨y :: ys, by simp, ?_⟩
    rw [List.foldlM_cons, hy]
    exact hys

theorem normalizeDomains_idem {toLower : Char → Char}
    (hlower : ∀ c, toLower (toLower c) = toLower c) {domains result : List String}
    (h : normalizeDomains toLower Net.parsesIP domains = .ok result) :
    normalizeDomains toLower Net.parsesIP result = .ok result := by
  have hsome := (normalizeDomains_ok h).2
  simp only [normalizeDomains, bind_eq_ok, require_eq_ok, exists_const] at h ⊢
  refine ⟨hsome, ?_⟩
  suffices hstep : ∀ done x done', normalizeDomain toLower Net.parsesIP done x = .ok done' →
      ∃ y, done' = done ++ [y] ∧ normalizeDomain toLower Net.parsesIP done y = .ok done' by
    obtain ⟨ys, rfl, hys⟩ := foldlM_idem hstep h.2
    exact hys
  intro done x done' hx
  simp only [normalizeDomain, bind_eq_ok, require_eq_ok, pure_eq_ok, exists_const] at hx ⊢
  obtain ⟨hip, hvalid, hnew, rfl⟩ := hx
  have htext := hostText_of_validHostname hvalid
  refine ⟨_, rfl, ?_⟩
  rw [htext.trimSpace, htext.trimSuffix, map_toLower_idem hlower]
  exact ⟨hip, hvalid, hnew, rfl⟩

theorem normalizeNodeIDs_idem {nodes result : List String}
    (h : normalizeNodeIDs nodes = .ok result) : normalizeNodeIDs result = .ok result := by
  have hsome := (normalizeNodeIDs_ok h).2
  simp only [normalizeNodeIDs, bind_eq_ok, require_eq_ok, exists_const] at h ⊢
  refine ⟨hsome, ?_⟩
  suffices hstep : ∀ done x done', normalizeNodeID done x = .ok done' →
      ∃ y, done' = done ++ [y] ∧ normalizeNodeID done y = .ok done' by
    obtain ⟨ys, rfl, hys⟩ := foldlM_idem hstep h.2
    exact hys
  intro done x done' hx
  simp only [normalizeNodeID, bind_eq_ok, require_eq_ok, pure_eq_ok, exists_const] at hx ⊢
  obtain ⟨hempty, hnew, rfl⟩ := hx
  refine ⟨_, rfl, ?_⟩
  rw [Text.trimSpace_trimSpace]
  exact ⟨hempty, hnew, rfl⟩

/-! ### TCP forwards -/

/-- The body of the loop of `normalizeTCPForwards`. -/
def normalizeTCPForward (toLower : Char → Char) (seenPorts : List Int) (forward : TCPForward) :
    Except String TCPForward := do
  let name := Text.trimSpace forward.name
  let inForward := fun text => "TCP forward " ++ name.quote ++ text
  require (name ≠ "" ∧ Text.byteLength name ≤ 100)
    "TCP forward name must be between 1 and 100 characters"
  require (1 ≤ forward.listenPort ∧ forward.listenPort ≤ 65535)
    (inForward " listen port must be between 1 and 65535")
  require (forward.listenPort ≠ 80 ∧ forward.listenPort ≠ 443)
    (inForward (" cannot listen on reserved HTTP port " ++ toString forward.listenPort))
  require (forward.listenPort ∉ seenPorts)
    ("duplicate TCP listen port " ++ toString forward.listenPort)
  let upstreamHost := (Text.trimSuffix (Text.trimSpace forward.upstreamHost) ".").map toLower
  require (validHostname Net.parsesIP upstreamHost = true)
    (inForward " has an invalid upstream hostname")
  require (1 ≤ forward.upstreamPort ∧ forward.upstreamPort ≤ 65535)
    (inForward " upstream port must be between 1 and 65535")
  let connect := if forward.connectTimeoutSeconds = 0 then 10 else forward.connectTimeoutSeconds
  require (1 ≤ connect ∧ connect ≤ 60)
    (inForward " connect timeout must be between 1 and 60 seconds")
  let idle := if forward.idleTimeoutSeconds = 0 then 300 else forward.idleTimeoutSeconds
  require (30 ≤ idle ∧ idle ≤ 3600)
    (inForward " idle timeout must be between 30 and 3600 seconds")
  let given :=
    (Text.trimSuffix (Text.trimSpace forward.upstreamTLSServerName) ".").map toLower
  let forward :=
    { forward with
      name := name
      upstreamHost := upstreamHost
      connectTimeoutSeconds := connect
      idleTimeoutSeconds := idle
      upstreamTLSServerName := given }
  if forward.upstreamTLS = false then
    require (given = "") (inForward " TLS server name requires upstream TLS")
    return forward
  else
    require (given = "" → Net.parsesIP upstreamHost = false)
      (inForward " requires a TLS server name when the upstream is an IP address")
    let serverName := if given = "" then upstreamHost else given
    require (Net.parsesIP serverName = false ∧ validHostname Net.parsesIP serverName = true)
      (inForward " has an invalid upstream TLS server name")
    return { forward with upstreamTLSServerName := serverName }

/-- The loop of `normalizeTCPForwards`. -/
def normalizeTCPForwardList (toLower : Char → Char) :
    List Int → List TCPForward → Except String (List TCPForward)
  | _, [] => .ok []
  | seenPorts, forward :: forwards => do
    let normalized ← normalizeTCPForward toLower seenPorts forward
    let rest ← normalizeTCPForwardList toLower (forward.listenPort :: seenPorts) forwards
    return normalized :: rest

def normalizeTCPForwards (toLower : Char → Char) (forwards : List TCPForward) :
    Except String (List TCPForward) := do
  require (forwards.length ≤ 32) "a site can define at most 32 TCP forwards"
  normalizeTCPForwardList toLower [] forwards

/-- A name that has been trimmed and lowered, and is a host name or empty, stays as it is. -/
theorem lowered_idem {toLower : Char → Char} (hlower : ∀ c, toLower (toLower c) = toLower c)
    {given value : String} (hvalue : (Text.trimSuffix given ".").map toLower = value)
    (hvalid : value = "" ∨ validHostname Net.parsesIP value = true) :
    (Text.trimSuffix (Text.trimSpace value) ".").map toLower = value := by
  rcases hvalid with hempty | hvalid
  · rw [hempty]
    apply String.ext
    simp [Text.trimSpace, Text.trimSuffix]
  · have htext := hostText_of_validHostname hvalid
    rw [htext.trimSpace, htext.trimSuffix, ← hvalue, map_toLower_idem hlower]

/-- A number that was replaced when it was zero is not zero. -/
theorem default_idem {value default : Int} (hdefault : default ≠ 0) :
    (if (if value = 0 then default else value) = 0 then default
      else (if value = 0 then default else value)) = if value = 0 then default else value := by
  split <;> simp_all

theorem normalizeTCPForward_idem {toLower : Char → Char}
    (hlower : ∀ c, toLower (toLower c) = toLower c) {seenPorts : List Int}
    {forward forward' : TCPForward}
    (h : normalizeTCPForward toLower seenPorts forward = .ok forward') :
    normalizeTCPForward toLower seenPorts forward' = .ok forward' ∧
      forward'.listenPort = forward.listenPort := by
  simp only [normalizeTCPForward, bind_eq_ok, require_eq_ok, exists_const] at h ⊢
  obtain ⟨hname, hlisten, hreserved, hnew, hhost, hport, hconnect, hidle, h⟩ := h
  have hhost' := lowered_idem hlower rfl (Or.inr hhost)
  generalize hserver : (Text.trimSuffix (Text.trimSpace forward.upstreamTLSServerName) ".").map
    toLower = given at h
  split at h
  · next hplain =>
    simp only [bind_eq_ok, require_eq_ok, pure_eq_ok, exists_const] at h
    obtain ⟨hempty, rfl⟩ := h
    have hserver' := lowered_idem hlower hserver (Or.inl hempty)
    simp only [Text.trimSpace_trimSpace, hhost', hserver',
      default_idem (show (10 : Int) ≠ 0 by decide), default_idem (show (300 : Int) ≠ 0 by decide),
      hplain, if_true, bind_eq_ok, require_eq_ok,
      pure_eq_ok, exists_const]
    exact ⟨⟨hname, hlisten, hreserved, hnew, hhost, hport, hconnect, hidle, hempty, trivial⟩,
      trivial⟩
  · next htls =>
    simp only [bind_eq_ok, require_eq_ok, pure_eq_ok, exists_const] at h
    obtain ⟨-, hvalid, rfl⟩ := h
    have hsome := (hostText_of_validHostname hvalid.2).ne_empty
    have hserver' : (Text.trimSuffix (Text.trimSpace (if given = "" then
        (Text.trimSuffix (Text.trimSpace forward.upstreamHost) ".").map toLower else given))
        ".").map toLower = if given = "" then
        (Text.trimSuffix (Text.trimSpace forward.upstreamHost) ".").map toLower else given := by
      by_cases hempty : given = ""
      · simp only [if_pos hempty]
        exact hhost'
      · simp only [if_neg hempty] at hvalid ⊢
        exact lowered_idem hlower hserver (Or.inr hvalid.2)
    simp only [Text.trimSpace_trimSpace, hhost', hserver',
      default_idem (show (10 : Int) ≠ 0 by decide), default_idem (show (300 : Int) ≠ 0 by decide),
      if_neg htls, if_neg hsome, bind_eq_ok,
      require_eq_ok, pure_eq_ok, exists_const]
    exact ⟨⟨hname, hlisten, hreserved, hnew, hhost, hport, hconnect, hidle,
      fun hempty => absurd hempty hsome, hvalid, trivial⟩, trivial⟩

theorem normalizeTCPForwardList_idem {toLower : Char → Char}
    (hlower : ∀ c, toLower (toLower c) = toLower c) {seenPorts : List Int}
    {forwards result : List TCPForward}
    (h : normalizeTCPForwardList toLower seenPorts forwards = .ok result) :
    normalizeTCPForwardList toLower seenPorts result = .ok result ∧
      result.length = forwards.length := by
  induction forwards generalizing seenPorts result with
  | nil =>
    obtain rfl := Except.ok.inj h
    exact ⟨rfl, rfl⟩
  | cons forward forwards ih =>
    simp only [normalizeTCPForwardList, bind_eq_ok, pure_eq_ok] at h
    obtain ⟨normalized, hforward, rest, hrest, rfl⟩ := h
    obtain ⟨hagain, hport⟩ := normalizeTCPForward_idem hlower hforward
    obtain ⟨hrest, hlength⟩ := ih hrest
    refine ⟨?_, congrArg (· + 1) hlength⟩
    simp only [normalizeTCPForwardList, bind_eq_ok, pure_eq_ok, hport]
    exact ⟨normalized, hagain, rest, hrest, rfl⟩

theorem normalizeTCPForwards_idem {toLower : Char → Char}
    (hlower : ∀ c, toLower (toLower c) = toLower c) {forwards result : List TCPForward}
    (h : normalizeTCPForwards toLower forwards = .ok result) :
    normalizeTCPForwards toLower result = .ok result := by
  simp only [normalizeTCPForwards, bind_eq_ok, require_eq_ok, exists_const] at h ⊢
  obtain ⟨hagain, hlength⟩ := normalizeTCPForwardList_idem hlower h.2
  exact ⟨hlength ▸ h.1, hagain⟩

/-! ### The site -/

/-- The scheme of an origin that has been accepted. -/
def originScheme (origin : Origin) : String :=
  match Url.parse origin.url.toList with
  | some parsed => String.ofList parsed.scheme
  | none => ""

/-- The part of `NormalizeAndValidateSite` about the origins, which a site of TCP forwards alone
does not have. -/
def normalizeOrigins (toLower : Char → Char) (site : Site) : Except String Site := do
  if site.tcpOnly = true then
    require (site.tcpForwards ≠ []) "TCP-only sites require at least one TCP forward"
    return { site with streamPaths := [] }
  else
    let primary ← (validateOrigin toLower site.primaryOrigin).mapError
      fun text => "primary origin: " ++ text
    require (site.passthrough = true →
        originScheme primary = "http" ∨ originScheme primary = "https")
      "passthrough mode is only supported for HTTP and HTTPS origins"
    match site.backupOrigin with
    | none => return { site with primaryOrigin := primary, streamPaths := [] }
    | some origin =>
      let backup ← (validateOrigin toLower origin).mapError fun text => "backup origin: " ++ text
      require (originScheme primary = originScheme backup)
        "primary and backup origin must use the same scheme"
      return { site with primaryOrigin := primary, backupOrigin := some backup, streamPaths := [] }

/-- `NormalizeAndValidateSite` -/
def normalizeAndValidateSite (toLower : Char → Char) (site : Site) : Except String Site := do
  let name := Text.trimSpace site.name
  require (name ≠ "" ∧ Text.byteLength name ≤ 100)
    "site name must be between 1 and 100 characters"
  let clientMaxBodySizeMB ← normalizeClientMaxBodySizeMB site.clientMaxBodySizeMB
  let clientKeepaliveTimeoutSeconds ←
    normalizeClientKeepaliveTimeoutSeconds site.clientKeepaliveTimeoutSeconds
  let readWriteTimeoutSeconds ← normalizeReadWriteTimeoutSeconds site.readWriteTimeoutSeconds
  site.dnsTTLSeconds.forM validateDNSTTLSeconds
  let domains ← normalizeDomains toLower Net.parsesIP site.domains
  let nodes ← normalizeNodeIDs site.nodes
  let tcpForwards ← normalizeTCPForwards toLower site.tcpForwards
  normalizeOrigins toLower
    { site with
      name := name
      clientMaxBodySizeMB := clientMaxBodySizeMB
      clientKeepaliveTimeoutSeconds := clientKeepaliveTimeoutSeconds
      readWriteTimeoutSeconds := readWriteTimeoutSeconds
      domains := domains
      nodes := nodes
      tcpForwards := tcpForwards }

/-- Only the origins and the stream paths change. -/
theorem normalizeOrigins_idem {toLower : Char → Char}
    (hlower : ∀ c, toLower (toLower c) = toLower c) {site site' : Site}
    (h : normalizeOrigins toLower site = .ok site') :
    normalizeOrigins toLower site' = .ok site' ∧
      site' = { site with
        primaryOrigin := site'.primaryOrigin
        backupOrigin := site'.backupOrigin
        streamPaths := [] } := by
  rw [normalizeOrigins] at h
  split at h
  · next htcp =>
    simp only [bind_eq_ok, require_eq_ok, pure_eq_ok, exists_const] at h
    obtain ⟨hsome, rfl⟩ := h
    refine ⟨?_, rfl⟩
    rw [normalizeOrigins, if_pos htcp]
    simp only [bind_eq_ok, require_eq_ok, pure_eq_ok, exists_const]
    exact ⟨hsome, trivial⟩
  · next htcp =>
    simp only [bind_eq_ok, mapError_eq_ok, require_eq_ok, exists_const] at h
    obtain ⟨primary, hprimary, hpassthrough, h⟩ := h
    have hagain := validateOrigin_idem hlower hprimary
    split at h
    · next hnone =>
      rw [pure_eq_ok] at h
      subst h
      refine ⟨?_, rfl⟩
      rw [normalizeOrigins, if_neg htcp]
      simp only [bind_eq_ok, mapError_eq_ok, require_eq_ok, exists_const]
      refine ⟨primary, hagain, hpassthrough, ?_⟩
      rw [hnone]
      rfl
    · next origin hbackup =>
      simp only [bind_eq_ok, mapError_eq_ok, require_eq_ok, pure_eq_ok, exists_const] at h
      obtain ⟨backup, horigin, hscheme, rfl⟩ := h
      refine ⟨?_, rfl⟩
      rw [normalizeOrigins, if_neg htcp]
      simp only [bind_eq_ok, mapError_eq_ok, require_eq_ok, pure_eq_ok, exists_const]
      exact ⟨primary, hagain, hpassthrough, backup, validateOrigin_idem hlower horigin, hscheme,
        rfl⟩

/-- A site that was accepted is accepted again, and nothing in it changes. -/
theorem normalizeAndValidateSite_idem {toLower : Char → Char}
    (hlower : ∀ c, toLower (toLower c) = toLower c) {site site' : Site}
    (h : normalizeAndValidateSite toLower site = .ok site') :
    normalizeAndValidateSite toLower site' = .ok site' := by
  simp only [normalizeAndValidateSite, bind_eq_ok, require_eq_ok, exists_const] at h
  obtain ⟨hname, body, hbody, keepalive, hkeepalive, timeout, htimeout, ttl, httl, domains,
    hdomains, nodes, hnodes, forwards, hforwards, horigins⟩ := h
  obtain ⟨hagain, hsite⟩ := normalizeOrigins_idem hlower horigins
  -- every other field of the result is what its own normaliser returned
  have hname' : site'.name = Text.trimSpace site.name := by rw [hsite]
  have httl' : site'.dnsTTLSeconds = site.dnsTTLSeconds := by rw [hsite]
  obtain rfl : site'.clientMaxBodySizeMB = body := by rw [hsite]
  obtain rfl : site'.clientKeepaliveTimeoutSeconds = keepalive := by rw [hsite]
  obtain rfl : site'.readWriteTimeoutSeconds = timeout := by rw [hsite]
  obtain rfl : site'.domains = domains := by rw [hsite]
  obtain rfl : site'.nodes = nodes := by rw [hsite]
  obtain rfl : site'.tcpForwards = forwards := by rw [hsite]
  have htrimmed : Text.trimSpace site'.name = site'.name := by
    rw [hname', Text.trimSpace_trimSpace]
  simp only [normalizeAndValidateSite, bind_eq_ok, require_eq_ok, exists_const, htrimmed, httl']
  refine ⟨hname' ▸ hname, _, normalizeDefault_idem (by decide) hbody, _,
    normalizeDefault_idem (by decide) hkeepalive, _, normalizeDefault_idem (by decide) htimeout,
    ttl, httl, _, normalizeDomains_idem hlower hdomains, _, normalizeNodeIDs_idem hnodes, _,
    normalizeTCPForwards_idem hlower hforwards, ?_⟩
  rw [← httl']
  exact hagain

/-- A site as an administrator may send it. -/
def givenSite : Site where
  id := "shop"
  name := " Shop "
  zoneID := "zone"
  domains := ["Shop.Example.com."]
  nodes := ["edge "]
  primaryOrigin := ⟨" https://[2001:DB8::1]", "", " Origin.Example.com", true⟩
  backupOrigin := some ⟨"https://backup.example.com:8443", " ", "", false⟩
  streamPaths := ["/live"]
  passthrough := false
  clientMaxBodySizeMB := 0
  clientKeepaliveTimeoutSeconds := 0
  readWriteTimeoutSeconds := 900
  dnsTTLSeconds := some 120
  tcpOnly := false
  tcpForwards := [⟨"mail ", 25, false, "Mail.Example.com.", 25, true, "", 0, 0⟩]
  cacheGeneration := 1
  configVersion := 0
  published := false
  enabled := true
  deleting := false
  createdAt := 0
  updatedAt := 0

/-- That site as it is stored. -/
def storedSite : Site :=
  { givenSite with
    name := "Shop"
    domains := ["shop.example.com"]
    nodes := ["edge"]
    primaryOrigin :=
      ⟨"https://[2001:DB8::1]", "2001:DB8::1", "origin.example.com", true⟩
    backupOrigin := some ⟨"https://backup.example.com:8443", "backup.example.com", "", false⟩
    streamPaths := []
    clientMaxBodySizeMB := 128
    clientKeepaliveTimeoutSeconds := 120
    tcpForwards :=
      [⟨"mail", 25, false, "mail.example.com", 25, true, "mail.example.com", 10, 300⟩] }

theorem storedSite_idem : normalizeAndValidateSite Char.toLower storedSite = .ok storedSite :=
  normalizeAndValidateSite_idem Text.charToLower_toLower
    (show normalizeAndValidateSite Char.toLower givenSite = .ok storedSite by decide +kernel)

end SimpleCdn
